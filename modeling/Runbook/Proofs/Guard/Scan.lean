import Mathlib.Data.List.Basic
import Runbook.Proofs.Template.Reading

/-!
This module contains the search for operators in a guard: in which state it is behind a text, and
what it finds there. Operators are found outside quotes only, and a quoted literal is passed over
with all of its escapes.
-/

namespace Runbook.Guard

def Connective.sign : Connective → List Char
  | and => ['&', '&']
  | or => ['|', '|']

def Comparison.sign : Comparison → List Char
  | equal => ['=', '=']
  | notEqual => ['!', '=']

/-- The state behind a text. The search starts anew behind every connective. -/
def QuoteScan.after : QuoteScan → List Char → QuoteScan
  | scan, [] => scan
  | outside, '&' :: '&' :: rest => after outside rest
  | outside, '|' :: '|' :: rest => after outside rest
  | scan, c :: cs => after (scan.next c) cs

/-- A text with a connective outside quotes. -/
def HasConnective (scan : QuoteScan) (s : List Char) : Prop :=
  ∃ before connective behind,
    s = before ++ Connective.sign connective ++ behind ∧ scan.after before = .outside

def IsClear (signs : List Char) : QuoteScan → List Char → Prop
  | _, [] => True
  | scan, c :: cs => (scan = .outside → c ∉ signs) ∧ IsClear signs (scan.next c) cs

/-- A quote of either kind. -/
def IsQuote (q : Char) : Prop :=
  q = '"' ∨ q = '\''

/-- A character as it is written within a literal: a backslash makes a quote a part of the text. -/
def escapeIn (q c : Char) : List Char :=
  if c = q ∨ c = '\\' then ['\\', c] else [c]

/-- A text between quotes. -/
def literal (q : Char) (s : List Char) : List Char :=
  q :: (s.flatMap (escapeIn q) ++ [q])

variable {scan : QuoteScan} {signs s t : List Char} {q : Char}

theorem QuoteScan.after_eq_foldl (scan : QuoteScan) (s : List Char)
    : scan.after s = s.foldl next scan := by
  fun_induction after scan s with
  | case1 => rfl
  | case2 rest ih => exact ih
  | case3 rest ih => exact ih
  | case4 scan c cs _ _ ih => exact ih

theorem QuoteScan.after_cons (scan : QuoteScan) (c : Char) (cs : List Char)
    : scan.after (c :: cs) = (scan.next c).after cs := by
  rw [after_eq_foldl, after_eq_foldl]
  rfl

theorem QuoteScan.after_append (scan : QuoteScan) (s t : List Char)
    : scan.after (s ++ t) = (scan.after s).after t := by
  simp only [after_eq_foldl, List.foldl_append]

theorem QuoteScan.after_of_no_quote (h : ∀ c ∈ s, ¬ IsQuote c)
    : outside.after s = outside := by
  induction s with
  | nil => rfl
  | cons c cs ih =>
    obtain ⟨hc, hcs⟩ := List.forall_mem_cons.mp h
    have hnext : outside.next c = outside := if_neg hc
    rw [after_cons, hnext, ih hcs]

section Connectives

theorem hasConnective_cons_iff {c : Char} {cs : List Char}
    (hand : ∀ rest, scan = .outside → c = '&' → cs = '&' :: rest → False)
    (hor : ∀ rest, scan = .outside → c = '|' → cs = '|' :: rest → False)
    : HasConnective scan (c :: cs) ↔ HasConnective (scan.next c) cs := by
  constructor
  . rintro ⟨before, connective, behind, hs, hbefore⟩
    cases before with
    | nil =>
      have hscan : scan = .outside := hbefore
      cases connective with
      | and =>
        obtain ⟨hc, hcs⟩ := List.cons.inj hs
        exact (hand behind hscan hc hcs).elim
      | or =>
        obtain ⟨hc, hcs⟩ := List.cons.inj hs
        exact (hor behind hscan hc hcs).elim
    | cons d before =>
      obtain ⟨rfl, hcs⟩ := List.cons.inj hs
      rw [QuoteScan.after_cons] at hbefore
      exact ⟨before, connective, behind, hcs, hbefore⟩
  . rintro ⟨before, connective, behind, rfl, hbefore⟩
    refine ⟨c :: before, connective, behind, rfl, ?_⟩
    rw [QuoteScan.after_cons]
    exact hbefore

theorem splitTerms_eq_self_iff : splitTerms scan s = (s, []) ↔ ¬ HasConnective scan s := by
  fun_induction splitTerms scan s with
  | case1 =>
    refine ⟨?_, fun _ => rfl⟩
    rintro _ ⟨before, connective, behind, hs, _⟩
    cases connective with
    | and => simp [Connective.sign] at hs
    | or => simp [Connective.sign] at hs
  | case2 rest =>
    have hconnective : HasConnective .outside ('&' :: '&' :: rest) := ⟨[], .and, rest, rfl, rfl⟩
    simp [hconnective]
  | case3 rest =>
    have hconnective : HasConnective .outside ('|' :: '|' :: rest) := ⟨[], .or, rest, rfl, rfl⟩
    simp [hconnective]
  | case4 scan c cs hand hor term more hsplit ih =>
    rw [hasConnective_cons_iff hand hor, ← ih, hsplit]
    simp

instance (scan : QuoteScan) (s : List Char) : Decidable (HasConnective scan s) :=
  decidable_of_iff (splitTerms scan s ≠ (s, [])) (by rw [ne_eq, splitTerms_eq_self_iff, not_not])

end Connectives

section Clear

theorem isClear_append_iff
    : IsClear signs scan (s ++ t) ↔ IsClear signs scan s ∧ IsClear signs (scan.after s) t := by
  induction s generalizing scan with
  | nil => simp [IsClear, QuoteScan.after]
  | cons c cs ih => rw [List.cons_append, IsClear, IsClear, ih, QuoteScan.after_cons, and_assoc]

theorem isClear_of_disjoint (h : ∀ c ∈ s, c ∉ signs) : IsClear signs scan s := by
  induction s generalizing scan with
  | nil => trivial
  | cons c cs ih =>
    obtain ⟨hc, hcs⟩ := List.forall_mem_cons.mp h
    exact ⟨fun _ => hc, ih hcs⟩

theorem IsClear.mono {fewer : List Char} (h : IsClear signs scan s) (hsub : fewer ⊆ signs)
    : IsClear fewer scan s := by
  induction s generalizing scan with
  | nil => trivial
  | cons c cs ih => exact ⟨fun hscan hmem => h.1 hscan (hsub hmem), ih h.2⟩

theorem IsClear.splitTerms (h : IsClear ['&', '|'] scan s) : splitTerms scan s = (s, []) := by
  rw [splitTerms_eq_self_iff]
  rintro ⟨before, connective, behind, rfl, hbefore⟩
  rw [List.append_assoc, isClear_append_iff, hbefore] at h
  cases connective with
  | and => exact h.2.1 rfl (by decide)
  | or => exact h.2.1 rfl (by decide)

theorem IsClear.splitComparison? (h : IsClear ['=', '!'] scan s) (hs : scan.after s = .outside)
    (op : Comparison) (right : List Char)
    : splitComparison? scan (s ++ (op.sign ++ right)) = some (s, op, right) := by
  -- the search reads on over `s`, where neither operator can begin
  induction s generalizing scan with
  | nil =>
    have hscan : scan = .outside := hs
    rw [hscan]
    cases op with
    | equal => rfl
    | notEqual => rfl
  | cons c cs ih =>
    rw [QuoteScan.after_cons] at hs
    rw [List.cons_append, Guard.splitComparison?, ih h.2 hs]
    . rfl
    . intro _ hscan hc _
      exact h.1 hscan (by simp [hc])
    . intro _ hscan hc _
      exact h.1 hscan (by simp [hc])

end Clear

section Literal

theorem flatMap_escapeIn_eq_self (h : ∀ c ∈ s, c ≠ q ∧ c ≠ '\\') : s.flatMap (escapeIn q) = s := by
  have hplain : ∀ c ∈ s, escapeIn q c = [c] := fun c hc => if_neg (not_or.mpr (h c hc))
  rw [List.flatMap_congr hplain, List.flatMap_singleton']

theorem after_escapeIn (q c : Char)
    : (QuoteScan.inside q false).after (escapeIn q c) = .inside q false := by
  unfold escapeIn
  split
  . rw [QuoteScan.after_cons, QuoteScan.after_cons]
    rfl
  . next hplain =>
    obtain ⟨hquote, hslash⟩ := not_or.mp hplain
    rw [QuoteScan.after_cons]
    simp [QuoteScan.after, QuoteScan.next, hquote, hslash]

theorem isClear_escapeIn (signs : List Char) (q c : Char)
    : IsClear signs (.inside q false) (escapeIn q c) := by
  unfold escapeIn
  split
  . simp [IsClear, QuoteScan.next]
  . simp [IsClear]

theorem isClear_flatMap_escapeIn (signs : List Char) (q : Char) (s : List Char)
    : (QuoteScan.inside q false).after (s.flatMap (escapeIn q)) = .inside q false ∧
        IsClear signs (.inside q false) (s.flatMap (escapeIn q)) := by
  induction s with
  | nil => exact ⟨rfl, trivial⟩
  | cons c cs ih =>
    rw [List.flatMap_cons, QuoteScan.after_append, isClear_append_iff, after_escapeIn]
    exact ⟨ih.1, isClear_escapeIn signs q c, ih.2⟩

variable (hq : IsQuote q)

include hq

theorem after_literal (s : List Char) : QuoteScan.outside.after (literal q s) = .outside := by
  have hopen : QuoteScan.outside.next q = .inside q false := if_pos hq
  have hclose : (QuoteScan.inside q false).next q = .outside := by
    obtain rfl | rfl := hq <;> rfl
  unfold literal
  rw [QuoteScan.after_cons, hopen, QuoteScan.after_append]
  rw [(isClear_flatMap_escapeIn [] q s).1, QuoteScan.after_cons, hclose]
  rfl

theorem isClear_literal (hsigns : q ∉ signs) (s : List Char)
    : IsClear signs .outside (literal q s) := by
  have hopen : QuoteScan.outside.next q = .inside q false := if_pos hq
  obtain ⟨hafter, hclear⟩ := isClear_flatMap_escapeIn signs q s
  refine ⟨fun _ => hsigns, ?_⟩
  rw [hopen, isClear_append_iff, hafter]
  exact ⟨hclear, nofun, trivial⟩

end Literal

end Runbook.Guard
