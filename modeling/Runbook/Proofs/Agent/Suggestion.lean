import Mathlib.Data.List.Induction
import Mathlib.Order.Bounds.Defs
import Runbook.Agent.Suggestion

/-!
This module contains what a suggestion is. The distance between two words is the least number of
edits that turn one into the other, and the word that is suggested is the first of the closest ones:
among all known words if one of them is at most two edits away, and else among those that begin with
the word or that it begins with.
-/

namespace Runbook.Agent

/-- One character is inserted, deleted or substituted. -/
inductive Edit : List Char → List Char → Prop where
  | insert (before : List Char) (c : Char) (behind : List Char)
      : Edit (before ++ behind) (before ++ c :: behind)
  | delete (before : List Char) (c : Char) (behind : List Char)
      : Edit (before ++ c :: behind) (before ++ behind)
  | substitute (before : List Char) (c d : Char) (behind : List Char)
      : Edit (before ++ c :: behind) (before ++ d :: behind)

/-- A number of edits, one after another. -/
inductive Edits : Nat → List Char → List Char → Prop where
  | none (xs : List Char) : Edits 0 xs xs
  | cons {n : Nat} {xs ys zs : List Char} (edit : Edit xs ys) (more : Edits n ys zs)
      : Edits (n + 1) xs zs

section Distance

theorem distances_tail (xs : List Char) (y : Char) (ys : List Char)
    : (distances xs (y :: ys)).tail = distances xs ys := by
  induction xs with
  | nil =>
    unfold distances
    rw [List.length_cons, List.range_succ, List.reverse_append]
    rfl
  | cons x xs ih =>
    unfold distances
    rw [← ih]
    rfl

theorem editDistance_nil_left (ys : List Char) : editDistance [] ys = ys.length := by
  unfold editDistance distances
  rw [List.range_succ, List.reverse_append]
  rfl

theorem editDistance_cons_nil (x : Char) (xs : List Char)
    : editDistance (x :: xs) [] = editDistance xs [] + 1 := rfl

theorem editDistance_cons_cons (x : Char) (xs : List Char) (y : Char) (ys : List Char)
    : editDistance (x :: xs) (y :: ys)
        =
      min (min (editDistance xs (y :: ys) + 1) (editDistance (x :: xs) ys + 1))
        (editDistance xs ys + if x = y then 0 else 1) := by
  unfold editDistance
  rw [← distances_tail xs y ys, ← distances_tail (x :: xs) y ys]
  rfl

variable (x y : Char) (xs ys : List Char)

theorem editDistance_cons_left_le : editDistance (x :: xs) ys ≤ editDistance xs ys + 1 := by
  cases ys with
  | nil => exact Nat.le_of_eq (editDistance_cons_nil x xs)
  | cons y ys =>
    rw [editDistance_cons_cons]
    omega

theorem editDistance_cons_right_le : editDistance xs (y :: ys) ≤ editDistance xs ys + 1 := by
  cases xs with
  | nil =>
    rw [editDistance_nil_left, editDistance_nil_left]
    exact Nat.le_refl _
  | cons x xs =>
    rw [editDistance_cons_cons]
    omega

theorem le_editDistance_cons_left : editDistance xs ys ≤ editDistance (x :: xs) ys + 1 := by
  induction ys with
  | nil =>
    rw [editDistance_cons_nil]
    omega
  | cons y ys ih =>
    have hright := editDistance_cons_right_le y xs ys
    rw [editDistance_cons_cons]
    split <;> omega

theorem editDistance_substitute_le (z : Char)
    : editDistance (x :: xs) ys ≤ editDistance (z :: xs) ys + 1 := by
  induction ys with
  | nil =>
    rw [editDistance_cons_nil, editDistance_cons_nil]
    omega
  | cons y ys ih =>
    rw [editDistance_cons_cons, editDistance_cons_cons]
    split <;> split <;> omega

end Distance

section Scripts

variable {xs ys : List Char}

theorem editDistance_append_left_le (h : ∀ zs, editDistance xs zs ≤ editDistance ys zs + 1)
    (before zs : List Char)
    : editDistance (before ++ xs) zs ≤ editDistance (before ++ ys) zs + 1 := by
  induction before generalizing zs with
  | nil => exact h zs
  | cons c cs ih =>
    induction zs with
    | nil =>
      have hcs := ih []
      rw [List.cons_append, List.cons_append, editDistance_cons_nil, editDistance_cons_nil]
      omega
    | cons z zs ihz =>
      have hdelete := ih (z :: zs)
      have hkeep := ih zs
      rw [List.cons_append, List.cons_append] at ihz ⊢
      rw [editDistance_cons_cons, editDistance_cons_cons]
      omega

theorem Edit.editDistance_le (h : Edit xs ys) (zs : List Char)
    : editDistance xs zs ≤ editDistance ys zs + 1 := by
  cases h with
  | insert before c behind =>
    exact editDistance_append_left_le (le_editDistance_cons_left c behind) before zs
  | delete before c behind =>
    exact editDistance_append_left_le (editDistance_cons_left_le c behind) before zs
  | substitute before c d behind =>
    exact editDistance_append_left_le (fun zs => editDistance_substitute_le c behind zs d) before zs

theorem editDistance_self (xs : List Char) : editDistance xs xs = 0 := by
  induction xs with
  | nil => rfl
  | cons x xs ih =>
    rw [editDistance_cons_cons, ih, if_pos rfl]
    exact Nat.min_zero _

theorem Edits.editDistance_le {n : Nat} (h : Edits n xs ys) : editDistance xs ys ≤ n := by
  induction h with
  | none xs => exact Nat.le_of_eq (editDistance_self xs)
  | cons edit more ih => exact Nat.le_trans (edit.editDistance_le _) (Nat.succ_le_succ ih)

theorem Edit.keep (h : Edit xs ys) (c : Char) : Edit (c :: xs) (c :: ys) := by
  cases h with
  | insert before d behind => exact .insert (c :: before) d behind
  | delete before d behind => exact .delete (c :: before) d behind
  | substitute before d e behind => exact .substitute (c :: before) d e behind

theorem Edits.keep {n : Nat} (h : Edits n xs ys) (c : Char) : Edits n (c :: xs) (c :: ys) := by
  induction h with
  | none xs => exact .none (c :: xs)
  | cons edit more ih => exact .cons (edit.keep c) ih

theorem edits_editDistance (xs ys : List Char) : Edits (editDistance xs ys) xs ys := by
  induction xs generalizing ys with
  | nil =>
    rw [editDistance_nil_left]
    induction ys with
    | nil => exact .none []
    | cons y ys ih => exact .cons (.insert [] y []) (ih.keep y)
  | cons x xs ih =>
    induction ys with
    | nil => exact .cons (.delete [] x xs) (ih [])
    | cons y ys ihy =>
      obtain hdelete | hinsert | hkeep
          : editDistance (x :: xs) (y :: ys) = editDistance xs (y :: ys) + 1 ∨
            editDistance (x :: xs) (y :: ys) = editDistance (x :: xs) ys + 1 ∨
            editDistance (x :: xs) (y :: ys)
              = editDistance xs ys + if x = y then 0 else 1 := by
        rw [editDistance_cons_cons]
        omega
      . rw [hdelete]
        exact .cons (.delete [] x xs) (ih (y :: ys))
      . rw [hinsert]
        exact .cons (.insert [] y (x :: xs)) (ihy.keep y)
      . rw [hkeep]
        split
        . next heq =>
          rw [heq]
          exact (ih ys).keep y
        . exact .cons (.substitute [] x y xs) ((ih ys).keep y)

theorem editDistance_isLeast (xs ys : List Char)
    : IsLeast {n | Edits n xs ys} (editDistance xs ys) :=
  ⟨edits_editDistance xs ys, fun _ h => h.editDistance_le⟩

example : editDistance "kitten".toList "sitting".toList = 3 := by decide

end Scripts

section Closest

variable {distance : String → Nat} {words : List String} {word other : String}

/-- The words before it are farther away, and none behind it is nearer. -/
def IsFirstOfLeast (distance : String → Nat) (words : List String) (word : String) : Prop :=
  ∃ before behind, words = before ++ word :: behind ∧
    (∀ w ∈ before, distance word < distance w) ∧
    ∀ w ∈ behind, distance word ≤ distance w

namespace IsFirstOfLeast

theorem mem (h : IsFirstOfLeast distance words word) : word ∈ words := by
  obtain ⟨before, behind, rfl, _⟩ := h
  exact List.mem_append_right before List.mem_cons_self

theorem le (h : IsFirstOfLeast distance words word) (hother : other ∈ words)
    : distance word ≤ distance other := by
  obtain ⟨before, behind, rfl, hbefore, hbehind⟩ := h
  rw [List.mem_append, List.mem_cons] at hother
  obtain hmem | rfl | hmem := hother
  . exact Nat.le_of_lt (hbefore other hmem)
  . exact Nat.le_refl _
  . exact hbehind other hmem

theorem eq (h : IsFirstOfLeast distance words word) (hother : IsFirstOfLeast distance words other)
    : word = other := by
  have hle := h.le hother.mem
  have hge := hother.le h.mem
  obtain ⟨before, behind, rfl, hbefore, _⟩ := h
  obtain ⟨before', behind', hwords, hbefore', _⟩ := hother
  -- Of two different places, the one that comes first is farther away than the other one.
  obtain ⟨between, hbetween⟩ | ⟨between, hbetween⟩ := List.append_eq_append_iff.mp hwords
  . cases between with
    | nil => exact (List.cons.inj hbetween.2).1
    | cons w ws =>
      obtain ⟨rfl, _⟩ := List.cons.inj hbetween.2
      have hlt := hbefore' word (hbetween.1 ▸ List.mem_append_right before List.mem_cons_self)
      omega
  . cases between with
    | nil => exact (List.cons.inj hbetween.2).1.symm
    | cons w ws =>
      obtain ⟨rfl, _⟩ := List.cons.inj hbetween.2
      have hlt := hbefore other (hbetween.1 ▸ List.mem_append_right before' List.mem_cons_self)
      omega

theorem append_of_le (h : IsFirstOfLeast distance words word) (hle : distance word ≤ distance other)
    : IsFirstOfLeast distance (words ++ [other]) word := by
  obtain ⟨before, behind, rfl, hbefore, hbehind⟩ := h
  refine ⟨before, behind ++ [other], by rw [List.append_assoc, List.cons_append], hbefore, ?_⟩
  rw [List.forall_mem_append]
  exact ⟨hbehind, List.forall_mem_singleton.mpr hle⟩

theorem append_of_lt (h : IsFirstOfLeast distance words word) (hlt : distance other < distance word)
    : IsFirstOfLeast distance (words ++ [other]) other :=
  ⟨words, [], rfl, fun _ hmem => Nat.lt_of_lt_of_le hlt (h.le hmem), List.forall_mem_nil _⟩

theorem filter (h : IsFirstOfLeast distance words word) {p : String → Bool} (hword : p word)
    : IsFirstOfLeast distance (words.filter p) word := by
  obtain ⟨before, behind, rfl, hbefore, hbehind⟩ := h
  refine ⟨before.filter p, behind.filter p, ?_, ?_, ?_⟩
  . rw [List.filter_append, List.filter_cons_of_pos hword]
  . exact fun w hmem => hbefore w (List.mem_filter.mp hmem).1
  . exact fun w hmem => hbehind w (List.mem_filter.mp hmem).1

end IsFirstOfLeast

def away (word : List Char) (known : String) : Nat :=
  editDistance word known.toList

def nearer (word : List Char) (best : Option (Nat × String)) (candidate : String)
    : Option (Nat × String) :=
  match best with
  | some (least, _) =>
    if away word candidate < least then some (away word candidate, candidate) else best
  | none => some (away word candidate, candidate)

def IsBest (word : List Char) (words : List String) : Option (Nat × String) → Prop
  | some (least, best) => least = away word best ∧ IsFirstOfLeast (away word) words best
  | none => words = []

theorem IsBest.nearer {word : List Char} {best : Option (Nat × String)}
    (h : IsBest word words best) (candidate : String)
    : IsBest word (words ++ [candidate]) (nearer word best candidate) := by
  cases best with
  | none =>
    subst h
    exact ⟨rfl, [], [], rfl, List.forall_mem_nil _, List.forall_mem_nil _⟩
  | some best =>
    obtain ⟨least, best⟩ := best
    obtain ⟨rfl, hfirst⟩ := h
    unfold Agent.nearer
    dsimp only
    split
    . next hlt => exact ⟨rfl, hfirst.append_of_lt hlt⟩
    . next hle => exact ⟨rfl, hfirst.append_of_le (Nat.le_of_not_lt hle)⟩

theorem isBest_foldl (word : List Char) (words : List String)
    : IsBest word words (words.foldl (nearer word) none) := by
  induction words using List.reverseRecOn with
  | nil => rfl
  | append_singleton words candidate ih =>
    rw [List.foldl_append]
    exact ih.nearer candidate

theorem closest_eq (word : List Char) (words : List String)
    : closest word words = (words.foldl (nearer word) none).map Prod.snd := rfl

theorem closest_cases (word : List Char) (words : List String)
    : (closest word words = none ∧ words = []) ∨
      ∃ best, closest word words = some best ∧ IsFirstOfLeast (away word) words best := by
  have hbest := isBest_foldl word words
  rw [closest_eq]
  cases hfold : words.foldl (nearer word) none with
  | none =>
    rw [hfold] at hbest
    exact .inl ⟨rfl, hbest⟩
  | some best =>
    rw [hfold] at hbest
    exact .inr ⟨best.2, rfl, hbest.2⟩

theorem closest_eq_none_iff {word : List Char} : closest word words = none ↔ words = [] := by
  obtain ⟨hclosest, rfl⟩ | ⟨best, hclosest, hbest⟩ := closest_cases word words
  . exact iff_of_true hclosest rfl
  . rw [hclosest]
    exact iff_of_false nofun (List.ne_nil_of_mem hbest.mem)

theorem closest_eq_some_iff {word : List Char} {best : String}
    : closest word words = some best ↔ IsFirstOfLeast (away word) words best := by
  obtain ⟨hclosest, rfl⟩ | ⟨found, hclosest, hfound⟩ := closest_cases word words
  . rw [hclosest]
    exact iff_of_false nofun fun h => List.not_mem_nil h.mem
  . rw [hclosest, Option.some_inj]
    exact ⟨fun h => h ▸ hfound, hfound.eq⟩

theorem closest_filter {word : List Char} {p : String → Bool} {limit : Nat}
    (hleft : ∀ w ∈ words, away word w ≤ limit → p w) (hnear : ∃ w ∈ words, away word w ≤ limit)
    : closest word (words.filter p) = closest word words := by
  obtain ⟨near, hmem, hle⟩ := hnear
  obtain ⟨_, rfl⟩ | ⟨best, hclosest, hbest⟩ := closest_cases word words
  . cases hmem
  . rw [hclosest, closest_eq_some_iff]
    exact hbest.filter (hleft best hbest.mem (Nat.le_trans (hbest.le hmem) hle))

end Closest

def beginsEither (word : List Char) (known : String) : Bool :=
  word.isPrefixOf known.toList || known.toList.isPrefixOf word

def candidates (word : List Char) (known : List String) : List String :=
  if ∃ k ∈ known, away word k ≤ 2 then known else known.filter (beginsEither word)

theorem suggestion_eq (word : String) (known : List String)
    : let lower := Text.lowercase word.toList
      suggestion word known = closest lower (candidates lower known) := by
  dsimp only
  unfold suggestion candidates
  split
  . next hnear =>
    apply closest_filter _ hnear
    intro k _ hle
    unfold mayMean
    rw [Bool.or_eq_true, Bool.or_eq_true, decide_eq_true_eq]
    exact .inl (.inl hle)
  . next hfar =>
    dsimp only
    congr 1
    apply List.filter_congr
    intro k hk
    have hle : ¬ editDistance (Text.lowercase word.toList) k.toList ≤ 2 :=
      fun hle => hfar ⟨k, hk, hle⟩
    unfold mayMean beginsEither
    rw [decide_eq_false hle, Bool.false_or]

/--
The distance is the least number of edits. The word that is suggested is the first known word of
least distance if one is at most two edits away, and otherwise the first of least distance among
those that begin with the word or that it begins with. There is no suggestion if there are none.
-/
theorem suggestion_is_closest
    : (∀ xs ys, IsLeast {n | Edits n xs ys} (editDistance xs ys)) ∧
      ∀ (word : String) (known : List String),
        let lower := Text.lowercase word.toList
        let distance := fun k : String => editDistance lower k.toList
        let meant :=
          if ∃ k ∈ known, distance k ≤ 2 then
            known
          else
            known.filter fun k => lower.isPrefixOf k.toList || k.toList.isPrefixOf lower
        (∀ k, suggestion word known = some k ↔ IsFirstOfLeast distance meant k) ∧
        (suggestion word known = none ↔ meant = []) := by
  refine ⟨editDistance_isLeast, ?_⟩
  intro word known
  dsimp only
  rw [suggestion_eq]
  exact ⟨fun k => closest_eq_some_iff, closest_eq_none_iff⟩

/-- A word that begins with the mistyped one does not displace a closer one. -/
example : suggestion "Stept" ["stepten", "steps"] = some "steps" := by decide +kernel

end Runbook.Agent
