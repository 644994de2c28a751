/-!
This module contains the search for all occurrences of something in a text, from the left and
without overlaps, as a division of the text into the finds and the characters between them.
Putting the fragments together again gives the text.
-/

namespace Runbook.Text

/-- A piece of a divided text: a character that belongs to no find, or a find with its text. -/
inductive Fragment (α : Type) where
  | char (c : Char)
  | found (value : α) (text : List Char)

def Fragment.source {α : Type} : Fragment α → List Char
  | .char c => [c]
  | .found _ text => text

/--
Cuts a text at every place where `find?` succeeds, the leftmost first. `find?` looks at the rest of
the text and answers with a value and the number of characters that belong to it; an answer of no
characters is no find.
-/
def cut {α : Type} (find? : List Char → Option (α × Nat)) (s : List Char) : List (Fragment α) :=
  go 0 s
where
  /-- The first argument counts the characters that still belong to the last find. -/
  go : Nat → List Char → List (Fragment α)
    | _, [] => []
    | n + 1, _ :: cs => go n cs
    | 0, c :: cs =>
      match find? (c :: cs) with
      | some (value, n + 1) => .found value (c :: cs.take n) :: go n cs
      | _ => .char c :: go 0 cs

theorem cut.go_source {α : Type} (find? : List Char → Option (α × Nat)) (s : List Char)
    (taken : Nat)
    : (cut.go find? taken s).flatMap Fragment.source = s.drop taken := by
  induction s generalizing taken with
  | nil => simp [cut.go]
  | cons c cs ih =>
    cases taken with
    | succ n => simpa [cut.go] using ih n
    | zero =>
      unfold cut.go
      split
      . simp [ih, Fragment.source]
      . simp [ih, Fragment.source]

/-- Behind a find, the rest of the text is cut as a text of its own. -/
theorem cut.go_eq {α : Type} (find? : List Char → Option (α × Nat)) (s : List Char)
    (taken : Nat)
    : cut.go find? taken s = cut find? (s.drop taken) := by
  induction s generalizing taken with
  | nil => simp [cut, cut.go]
  | cons c cs ih =>
    cases taken with
    | zero => rfl
    | succ n => simpa [cut.go] using ih n

/-- The fragments of a text make up the text. -/
theorem cut_source {α : Type} (find? : List Char → Option (α × Nat)) (s : List Char)
    : (cut find? s).flatMap Fragment.source = s := by
  simpa [cut] using cut.go_source find? s 0

/-- Finds a fixed text; the empty text is never found. -/
def literal? (word s : List Char) : Option (Unit × Nat) :=
  if word.isPrefixOf s then some ((), word.length) else none

def occursIn (word : List Char) : List Char → Bool
  | [] => word.isEmpty
  | c :: cs => word.isPrefixOf (c :: cs) || occursIn word cs

/-- A word stands in a text if it is an infix of it. -/
theorem occursIn_iff {word s : List Char} : occursIn word s ↔ word <:+: s := by
  induction s with
  | nil => simp [occursIn]
  | cons c cs ih => simp [occursIn, ih, List.infix_cons_iff]

def replaceAll {α : Type} (find? : List Char → Option (α × Nat)) (new s : List Char) : List Char :=
  (cut find? s).flatMap fun
    | .char c => [c]
    | .found _ _ => new

/-- Nothing else gets into a text by a replacement. -/
theorem mem_replaceAll {α : Type} {find? : List Char → Option (α × Nat)} {new s : List Char}
    {c : Char} (h : c ∈ replaceAll find? new s)
    : c ∈ s ∨ c ∈ new := by
  obtain ⟨fragment, hfragment, hc⟩ := List.mem_flatMap.mp h
  cases fragment with
  | char d =>
    left
    rw [← cut_source find? s]
    exact List.mem_flatMap.mpr ⟨_, hfragment, hc⟩
  | found value text => exact .inr hc

end Runbook.Text
