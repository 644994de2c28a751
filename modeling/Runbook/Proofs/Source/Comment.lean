import Runbook.Proofs.Source.Words

/-!
This module contains what the removal of comments keeps. What is left of a text holds no comment any
more, and a comment that is written behind a text is removed again exactly if all quoted runs of the
text are closed.
-/

namespace Runbook.Source

open Text

namespace CommentScan

/-- The state in which the search ends, before a comment or behind the text. -/
def after : CommentScan → List Char → CommentScan
  | scan, [] => scan
  | scan, c :: cs => if scan.stopsAt c then scan else after (scan.next c) cs

def isBare : CommentScan → Bool
  | bare _ => true
  | quoted _ _ => false

def ClosedByQuote : CommentScan → Prop
  | bare _ => True
  | quoted q _ => q = '"' ∨ q = '\''

variable {scan : CommentScan}

theorem keep_of_isPrefix {s t : List Char} (h : t <+: keep scan s) : keep scan t = t := by
  induction t generalizing scan s with
  | nil => rfl
  | cons c cs ih =>
    cases s with
    | nil => exact absurd (List.prefix_nil.mp h) (List.cons_ne_nil c cs)
    | cons d ds =>
      unfold keep at h
      split at h
      . exact absurd (List.prefix_nil.mp h) (List.cons_ne_nil c cs)
      . next hstop =>
        obtain ⟨rfl, htail⟩ := List.cons_prefix_cons.mp h
        rw [keep, if_neg hstop, ih htail]

theorem keep_append (scan : CommentScan) (s t : List Char)
    : keep scan (s ++ t) = if keep scan s = s then s ++ keep (scan.after s) t else keep scan s := by
  induction s generalizing scan with
  | nil => rfl
  | cons c cs ih =>
    rw [List.cons_append, keep, keep, after]
    by_cases hstop : scan.stopsAt c
    . rw [if_pos hstop, if_pos hstop, if_neg (List.cons_ne_nil c cs).symm]
    . simp only [if_neg hstop, List.cons_inj_right]
      rw [ih]
      split <;> rfl

theorem isBare_of_stopsAt {c : Char} (h : scan.stopsAt c) : scan.isBare := by
  cases scan with
  | bare before => rfl
  | quoted q escaped => cases h

theorem keep_eq_self_of_not_isBare {s : List Char} (h : (scan.after s).isBare = false)
    : keep scan s = s := by
  induction s generalizing scan with
  | nil => rfl
  | cons c cs ih =>
    unfold after at h
    unfold keep
    split at h
    . next hstop =>
      rw [isBare_of_stopsAt hstop] at h
      cases h
    . next hstop => rw [if_neg hstop, ih h]

theorem ClosedByQuote.next (h : scan.ClosedByQuote) (c : Char) : (scan.next c).ClosedByQuote := by
  unfold CommentScan.next
  split
  . split
    . next hquote =>
      rw [Bool.and_eq_true, Bool.or_eq_true, decide_eq_true_eq, decide_eq_true_eq] at hquote
      exact hquote.1
    . trivial
  . exact h
  . split
    . exact h
    . split
      . trivial
      . exact h

theorem ClosedByQuote.after (h : scan.ClosedByQuote) (s : List Char)
    : (scan.after s).ClosedByQuote := by
  induction s generalizing scan with
  | nil => exact h
  | cons c cs ih =>
    unfold CommentScan.after
    split
    . exact h
    . exact ih (h.next c)

theorem keep_comment (before : Option Char) (comment : List Char)
    : keep (.bare before) (' ' :: '#' :: comment) = [' '] := rfl

theorem keep_quoted_comment {q : Char} {escaped : Bool} (h : ClosedByQuote (.quoted q escaped))
    : keep (.quoted q escaped) [' ', '#'] = [' ', '#'] := by
  obtain rfl | rfl := h <;> cases escaped <;> rfl

end CommentScan

/-- Whether the search for a comment in a text ends outside quotes. -/
def closesQuotes (s : List Char) : Bool :=
  (CommentScan.after (.bare none) s).isBare

theorem stripComment_stripComment (s : List Char)
    : stripComment (stripComment s) = stripComment s := by
  have hkept : CommentScan.keep (.bare none) (stripComment s) = stripComment s :=
    CommentScan.keep_of_isPrefix (isPrefix_dropTail isBlank _)
  calc
    stripComment (stripComment s)
    _ = trimEnd (stripComment s) := congrArg trimEnd hkept
    _ = stripComment s := by
      unfold stripComment trimEnd
      rw [dropTail_eq_rdropWhile, dropTail_eq_rdropWhile, List.rdropWhile_idempotent]

theorem stripComment_append_comment {s : List Char} (h : closesQuotes s) (comment : List Char)
    : stripComment (s ++ ' ' :: '#' :: comment) = stripComment s := by
  unfold stripComment
  rw [CommentScan.keep_append]
  split
  . next hkept =>
    unfold closesQuotes at h
    cases hafter : CommentScan.after (.bare none) s with
    | bare before =>
      rw [CommentScan.keep_comment, hkept]
      exact trimEnd_append_blanks (List.forall_mem_singleton.mpr rfl) s
    | quoted q escaped =>
      rw [hafter] at h
      cases h
  . rfl

theorem stripComment_append_quoted {s : List Char} (h : closesQuotes s = false)
    : stripComment (s ++ [' ', '#']) = s ++ [' ', '#'] := by
  have hbare : CommentScan.ClosedByQuote (.bare none) := trivial
  have hquote := hbare.after s
  unfold closesQuotes at h
  have hkept := CommentScan.keep_eq_self_of_not_isBare h
  unfold stripComment trimEnd
  rw [CommentScan.keep_append, if_pos hkept]
  cases hafter : CommentScan.after (.bare none) s with
  | bare before =>
    rw [hafter] at h
    cases h
  | quoted q escaped =>
    rw [hafter] at hquote
    rw [CommentScan.keep_quoted_comment hquote]
    apply dropTail_of_getLast?
    rw [List.getLast?_append_of_ne_nil s (List.cons_ne_nil _ _)]
    rintro c hc
    cases hc
    rfl

/--
The removal of comments is stable: it leaves a beginning of the text, of which nothing more is
removed. A comment that is written behind a text is removed exactly if the search ends outside
quotes in that text.
-/
theorem stripComment_stable (s : List Char)
    : stripComment (stripComment s) = stripComment s ∧
      stripComment s <+: s ∧
      ((∀ comment, stripComment (s ++ [' ', '#'] ++ comment) = stripComment s)
        ↔
      closesQuotes s) := by
  refine ⟨stripComment_stripComment s, isPrefix_stripComment s, ?_, ?_⟩
  . intro h
    by_contra hquoted
    have hremoved := h []
    rw [List.append_nil, stripComment_append_quoted (Bool.eq_false_iff.mpr hquoted)] at hremoved
    have hlength := (isPrefix_stripComment s).length_le
    rw [← hremoved, List.length_append] at hlength
    exact Nat.not_succ_le_self _ (Nat.le_of_succ_le hlength)
  . intro h comment
    rw [List.append_assoc]
    exact stripComment_append_comment h comment

/-- An apostrophe within a word opens no quoted run, and one at the beginning of a value does. -/
example : closesQuotes "it's".toList ∧ ¬ closesQuotes "x: 'it".toList := by decide

end Runbook.Source
