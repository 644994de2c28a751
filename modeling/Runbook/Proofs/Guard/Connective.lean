import Mathlib.Data.List.Forall2
import Runbook.Proofs.Guard.Operand

/-!
This module contains the truth of a guard that is made longer by a term: guards are taken strictly
from left to right, so that all that stands before the last connective counts as a whole.
-/

namespace Runbook.Guard

def IsSpaced (term spaced : List Char) : Prop :=
  spaced = term ∨ spaced = term ++ [' ']

def IsSpacedBehind (joined spaced : Connective × List Char) : Prop :=
  spaced.1 = joined.1 ∧ IsSpaced joined.2 spaced.2

theorem IsSpaced.cons {term spaced : List Char} (h : IsSpaced term spaced) (c : Char)
    : IsSpaced (c :: term) (c :: spaced) := by
  cases h with
  | inl h => exact .inl (congrArg (c :: ·) h)
  | inr h => exact .inr (congrArg (c :: ·) h)

def onSides (f g : List Char → List Char) (found : List Char × Comparison × List Char)
    : List Char × Comparison × List Char :=
  (f found.1, found.2.1, g found.2.2)

theorem no_operator_append_blank {scan : QuoteScan} {c first second : Char} {s tail : List Char}
    (hsecond : ' ' ≠ second)
    (h : ∀ rest, scan = .outside → c = first → s = second :: rest → False)
    : ∀ rest, scan = .outside → c = first → s ++ ' ' :: tail = second :: rest → False := by
  intro rest hscan hc hs
  cases s with
  | nil => exact hsecond (List.cons.inj hs).1
  | cons d s => exact h s hscan hc (congrArg (· :: s) (List.cons.inj hs).1)

theorem splitTerms_blank_cons (s : List Char)
    : splitTerms .outside (' ' :: s)
        =
      (' ' :: (splitTerms .outside s).1, (splitTerms .outside s).2) := by
  rw [splitTerms]
  . rfl
  . exact fun _ _ hc => absurd hc (by decide)
  . exact fun _ _ hc => absurd hc (by decide)

theorem splitTerms_append_blank {scan : QuoteScan} {s tail : List Char}
    {more : List (Connective × List Char)}
    (h : splitTerms (scan.after s) (' ' :: tail) = ([' '], more))
    : ∃ first rest,
        splitTerms scan (s ++ ' ' :: tail) = (first, rest ++ more) ∧
        IsSpaced (splitTerms scan s).1 first ∧
        List.Forall₂ IsSpacedBehind (splitTerms scan s).2 rest := by
  -- only the last term of `s` gets the blank; behind a connective the search is as at the start
  fun_induction splitTerms scan s with
  | case1 scan => exact ⟨[' '], [], h, .inr rfl, .nil⟩
  | case2 s term joined hsplit ih =>
    obtain ⟨first, rest, hspaced, hfirst, hrest⟩ := ih h
    rw [hsplit] at hfirst hrest
    refine ⟨[], (.and, first) :: rest, ?_, .inl rfl, .cons ⟨rfl, hfirst⟩ hrest⟩
    simp [splitTerms, hspaced]
  | case3 s term joined hsplit ih =>
    obtain ⟨first, rest, hspaced, hfirst, hrest⟩ := ih h
    rw [hsplit] at hfirst hrest
    refine ⟨[], (.or, first) :: rest, ?_, .inl rfl, .cons ⟨rfl, hfirst⟩ hrest⟩
    simp [splitTerms, hspaced]
  | case4 scan c s hand hor term joined hsplit ih =>
    rw [QuoteScan.after_cons] at h
    obtain ⟨first, rest, hspaced, hfirst, hrest⟩ := ih h
    rw [hsplit] at hfirst hrest
    refine ⟨c :: first, rest, ?_, hfirst.cons c, hrest⟩
    rw [List.cons_append, splitTerms, hspaced]
    . exact no_operator_append_blank (by decide) hand
    . exact no_operator_append_blank (by decide) hor

theorem splitComparison?_append_blank (scan : QuoteScan) (s : List Char)
    : splitComparison? scan (s ++ [' '])
        =
      (splitComparison? scan s).map (onSides id (· ++ [' '])) := by
  fun_induction splitComparison? scan s with
  | case1 scan =>
    rw [List.nil_append, splitComparison?]
    . rfl
    . exact fun _ _ hc => absurd hc (by decide)
    . exact fun _ _ hc => absurd hc (by decide)
  | case2 rest => rfl
  | case3 rest => rfl
  | case4 scan c s hequal hnot ih =>
    rw [List.cons_append, splitComparison?, ih, Option.map_map, Option.map_map]
    . rfl
    . exact no_operator_append_blank (by decide) hequal
    . exact no_operator_append_blank (by decide) hnot

theorem splitComparison?_blank_cons (s : List Char)
    : splitComparison? .outside (' ' :: s)
        =
      (splitComparison? .outside s).map (onSides (' ' :: ·) id) := by
  rw [splitComparison?]
  . rfl
  . exact fun _ _ hc => absurd hc (by decide)
  . exact fun _ _ hc => absurd hc (by decide)

variable (vars : Json.Fields)

theorem evalTerm_eq_of_split {term other : List Char} {f g : List Char → List Char}
    (hsplit : splitComparison? .outside other = (splitComparison? .outside term).map (onSides f g))
    (hf : ∀ s, operand vars (f s) = operand vars s) (hg : ∀ s, operand vars (g s) = operand vars s)
    (hterm : operand vars other = operand vars term)
    : evalTerm vars other = evalTerm vars term := by
  cases h : splitComparison? .outside term with
  | none =>
    rw [h] at hsplit
    rw [evalTerm_of_none vars h, evalTerm_of_none vars hsplit, hterm]
  | some found =>
    rw [h] at hsplit
    rw [evalTerm_of_comparison vars h, evalTerm_of_comparison vars hsplit, hf, hg]

theorem evalTerm_append_blank (term : List Char)
    : evalTerm vars (term ++ [' ']) = evalTerm vars term :=
  evalTerm_eq_of_split vars (splitComparison?_append_blank .outside term) (fun _ => rfl)
    (operand_append_blank vars) (operand_append_blank vars term)

theorem evalTerm_blank_cons (term : List Char)
    : evalTerm vars (' ' :: term) = evalTerm vars term :=
  evalTerm_eq_of_split vars (splitComparison?_blank_cons term) (operand_blank_cons vars)
    (fun _ => rfl) (operand_blank_cons vars term)

theorem IsSpaced.evalTerm {term spaced : List Char} (h : IsSpaced term spaced)
    : evalTerm vars spaced = evalTerm vars term := by
  cases h with
  | inl h => rw [h]
  | inr h => rw [h, evalTerm_append_blank]

theorem evalNext_congr {term other : List Char} (h : evalTerm vars term = evalTerm vars other)
    (sofar : Bool) (connective : Connective)
    : evalNext vars sofar (connective, term) = evalNext vars sofar (connective, other) := by
  cases connective with
  | and => exact congrArg (sofar && ·) h
  | or => exact congrArg (sofar || ·) h

theorem foldl_evalNext_spaced {joined spaced : List (Connective × List Char)}
    (h : List.Forall₂ IsSpacedBehind joined spaced) (sofar : Bool)
    : spaced.foldl (evalNext vars) sofar = joined.foldl (evalNext vars) sofar := by
  induction h generalizing sofar with
  | nil => rfl
  | @cons joined spaced _ _ hterm _ ih =>
    have hnext : evalNext vars sofar (joined.1, spaced.2) = evalNext vars sofar joined :=
      evalNext_congr vars (hterm.2.evalTerm vars) sofar joined.1
    rw [← hterm.1] at hnext
    rw [List.foldl_cons, List.foldl_cons, hnext, ih]

theorem evalChars_of_single {t : List Char} (h : ¬ HasConnective .outside t)
    : evalChars vars t = evalTerm vars t := by
  unfold evalChars
  rw [splitTerms_eq_self_iff.mpr h]
  rfl

theorem evalChars_joined {e t : List Char} (he : QuoteScan.outside.after e = .outside)
    (ht : ¬ HasConnective .outside t) (connective : Connective)
    : evalChars vars (e ++ ' ' :: (connective.sign ++ ' ' :: t))
        =
      evalNext vars (evalChars vars e) (connective, t) := by
  have hterm : splitTerms .outside t = (t, []) := splitTerms_eq_self_iff.mpr ht
  have hjoined : splitTerms .outside (' ' :: (connective.sign ++ ' ' :: t))
      = ([' '], [(connective, ' ' :: t)]) := by
    rw [splitTerms_blank_cons]
    cases connective with
    | and => simp [Connective.sign, splitTerms, splitTerms_blank_cons, hterm]
    | or => simp [Connective.sign, splitTerms, splitTerms_blank_cons, hterm]
  rw [← he] at hjoined
  obtain ⟨first, rest, hsplit, hfirst, hrest⟩ := splitTerms_append_blank hjoined
  unfold evalChars
  rw [hsplit]
  dsimp only
  rw [List.foldl_append, hfirst.evalTerm, foldl_evalNext_spaced vars hrest]
  exact evalNext_congr vars (evalTerm_blank_cons vars t) _ connective

/--
Guards are taken from left to right: a term that is joined to a guard counts against the truth of
all that stands before it.
-/
theorem eval_joined {e t : String} (he : QuoteScan.outside.after e.toList = .outside)
    (ht : ¬ HasConnective .outside t.toList)
    : eval vars (e ++ " && " ++ t) = (eval vars e && eval vars t) ∧
        eval vars (e ++ " || " ++ t) = (eval vars e || eval vars t) := by
  unfold eval
  simp only [String.toList_append, List.append_assoc]
  rw [evalChars_of_single vars ht]
  exact ⟨evalChars_joined vars he ht .and, evalChars_joined vars he ht .or⟩

theorem eval_joined_of_quoted_operators
    : let vars : Json.Fields := [("t", .bool true), ("f", .bool false)]
      let e := "\x7bt\x7d || 'it\\'s && so' == \x7bf\x7d"
      let t := "\"a || b\" == \x7bf\x7d"
      QuoteScan.outside.after e.toList = .outside ∧
      ¬ HasConnective .outside t.toList ∧
      eval vars (e ++ " && " ++ t) = (eval vars e && eval vars t) ∧
      eval vars (e ++ " || " ++ t) = (eval vars e || eval vars t) := by
  intro vars e t
  have he : QuoteScan.outside.after e.toList = .outside := by decide +kernel
  have ht : ¬ HasConnective .outside t.toList := by decide +kernel
  exact ⟨he, ht, eval_joined vars he ht⟩

/-- `&&` does not bind closer than `||`. -/
example
    : eval [("t", .bool true), ("f", .bool false)] "\x7bt\x7d || \x7bt\x7d && \x7bf\x7d" = false := by
  decide +kernel

end Runbook.Guard
