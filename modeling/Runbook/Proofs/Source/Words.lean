import Mathlib.Data.List.Chain
import Runbook.Proofs.Source.Passage

/-!
This module contains texts that are made of words: how they are divided, and when no comment is cut
off them.
-/

namespace Runbook.Source

open Text

def isUnbroken (s : List Char) : Bool :=
  !s.isEmpty && s.all (!isBlank ·)

theorem isUnbroken_iff {s : List Char} : isUnbroken s ↔ s ≠ [] ∧ ∀ c ∈ s, isBlank c = false := by
  simp [isUnbroken]

theorem words_of_isUnbroken {word : List Char} (h : isUnbroken word) : words word = [word] := by
  obtain ⟨hne, hword⟩ := isUnbroken_iff.mp h
  clear h
  induction word with
  | nil => exact absurd rfl hne
  | cons c cs ih =>
    obtain ⟨hc, hcs⟩ := List.forall_mem_cons.mp hword
    unfold words
    rw [if_neg (Bool.eq_false_iff.mp hc)]
    cases cs with
    | nil => rfl
    | cons d ds =>
      rw [ih (List.cons_ne_nil d ds) hcs]
      dsimp only
      rw [hcs d (List.mem_cons_self ..)]
      rfl

theorem words_append {word : List Char} (h : isUnbroken word) {blank : Char}
    (hblank : isBlank blank) (rest : List Char)
    : words (word ++ blank :: rest) = word :: words rest := by
  obtain ⟨hne, hword⟩ := isUnbroken_iff.mp h
  clear h
  induction word with
  | nil => exact absurd rfl hne
  | cons c cs ih =>
    obtain ⟨hc, hcs⟩ := List.forall_mem_cons.mp hword
    have hrest : words (blank :: rest) = words rest := by
      conv => lhs; unfold words
      rw [if_pos hblank]
    rw [List.cons_append]
    conv => lhs; unfold words
    rw [if_neg (Bool.eq_false_iff.mp hc)]
    cases cs with
    | nil =>
      rw [List.nil_append, hrest]
      cases words rest with
      | nil => rfl
      | cons w ws => exact if_pos hblank
    | cons d ds =>
      rw [ih (List.cons_ne_nil d ds) hcs, List.cons_append]
      dsimp only
      rw [hcs d (List.mem_cons_self ..)]
      rfl

theorem dropTail_append {p : Char → Bool} {word : List Char} (hne : word ≠ [])
    (hword : ∀ c ∈ word, p c = false) (s : List Char)
    : dropTail p (s ++ word) = s ++ word := by
  apply dropTail_of_getLast?
  intro c hc
  rw [List.getLast?_append_of_ne_nil s hne] at hc
  exact hword c (List.mem_of_getLast? hc)

section Trim

variable {blanks : List Char}

theorem trimEnd_append_blanks (h : ∀ c ∈ blanks, isBlank c) (s : List Char)
    : trimEnd (s ++ blanks) = trimEnd s := by
  unfold trimEnd
  rw [dropTail_eq_rdropWhile, dropTail_eq_rdropWhile,
    rdropWhile_append_of_all s (List.all_eq_true.mpr h)]

theorem trim_append_blanks (h : ∀ c ∈ blanks, isBlank c) (s : List Char)
    : trim (s ++ blanks) = trim s := by
  unfold trim trimStart
  rw [List.dropWhile_append]
  split
  . next hblank =>
    rw [List.isEmpty_iff] at hblank
    rw [hblank, List.dropWhile_eq_nil_iff.mpr h]
  . exact trimEnd_append_blanks h _

theorem trim_blanks_append (h : ∀ c ∈ blanks, isBlank c) (s : List Char)
    : trim (blanks ++ s) = trim s := by
  unfold trim trimStart
  rw [List.dropWhile_append_of_pos h]

theorem trim_eq_self {s : List Char} (hfirst : ∀ c ∈ s.head?, isBlank c = false)
    (hlast : ∀ c ∈ s.getLast?, isBlank c = false)
    : trim s = s := by
  unfold trim
  rw [trimStart_eq_self hfirst]
  exact dropTail_of_getLast? hlast

theorem trim_enclosed {first last : Char} (hfirst : isBlank first = false)
    (hlast : isBlank last = false) (s : List Char)
    : trim (first :: (s ++ [last])) = first :: (s ++ [last]) := by
  apply trim_eq_self
  . rintro c ⟨⟩
    exact hfirst
  . rw [← List.cons_append, List.getLast?_concat]
    rintro c ⟨⟩
    exact hlast

theorem exists_blanks_trim (s : List Char)
    : ∃ before behind, s = before ++ trim s ++ behind ∧
        (∀ c ∈ before, isBlank c) ∧ ∀ c ∈ behind, isBlank c := by
  refine ⟨s.takeWhile isBlank, (trimStart s).rtakeWhile isBlank, ?_, ?_, ?_⟩
  . unfold trim trimEnd
    rw [dropTail_eq_rdropWhile, List.append_assoc, List.rdropWhile_append_rtakeWhile]
    exact List.takeWhile_append_dropWhile.symm
  . exact fun c hc => List.mem_takeWhile_imp hc
  . exact fun c hc => List.mem_rtakeWhile_imp hc

theorem not_isBlank_head_trim (s : List Char) : ∀ c ∈ (trim s).head?, isBlank c = false := by
  intro c hc
  obtain ⟨rest, hrest⟩ := List.head?_eq_some_iff.mp hc
  obtain ⟨behind, hbehind⟩ := isPrefix_dropTail isBlank (trimStart s)
  have hstart : s.dropWhile isBlank = c :: (rest ++ behind) := by
    rw [← List.cons_append, ← hrest]
    exact hbehind.symm
  have hfirst := List.head?_dropWhile_not isBlank s
  rw [hstart] at hfirst
  exact hfirst

theorem not_isBlank_last_trim (s : List Char) : ∀ c ∈ (trim s).getLast?, isBlank c = false := by
  unfold trim trimEnd
  rw [dropTail_eq_rdropWhile]
  intro c hc
  obtain ⟨hne, rfl⟩ := List.mem_getLast?_eq_getLast hc
  exact Bool.eq_false_iff.mpr (List.rdropWhile_last_not isBlank _ hne)

end Trim

def NoComment (before c : Char) : Prop :=
  isBlank before → c ≠ '#'

theorem CommentScan.next_stopsAt {scan : CommentScan} {c d : Char} (h : NoComment c d)
    : (scan.next c).stopsAt d = false := by
  have hbare : (CommentScan.bare (some c)).stopsAt d = false := by
    by_cases hblank : isBlank c
    . simp [stopsAt, h hblank]
    . simp [stopsAt, opensComment, hblank]
  unfold next
  split
  . split
    . rfl
    . exact hbare
  . rfl
  . split
    . rfl
    . split
      . exact hbare
      . rfl

theorem CommentScan.keep_eq_self {s : List Char} (h : s.IsChain NoComment) {scan : CommentScan}
    (hfirst : ∀ c ∈ s.head?, scan.stopsAt c = false)
    : keep scan s = s := by
  induction s generalizing scan with
  | nil => rfl
  | cons c cs ih =>
    rw [keep, hfirst c rfl, if_neg Bool.false_ne_true, ih h.tail]
    intro d hd
    cases cs with
    | nil => cases hd
    | cons e es =>
      cases hd
      exact next_stopsAt (List.isChain_cons_cons.mp h).1

theorem isChain_of_isUnbroken {word : List Char} (h : isUnbroken word) : word.IsChain NoComment := by
  apply List.Pairwise.isChain
  apply List.pairwise_of_forall_mem_list
  intro c hc d hd hblank
  rw [(isUnbroken_iff.mp h).2 c hc] at hblank
  cases hblank

theorem isChain_of_not_mem {s : List Char} (h : '#' ∉ s) : s.IsChain NoComment := by
  apply List.Pairwise.isChain
  apply List.pairwise_of_forall_mem_list
  rintro c _ d hd _ rfl
  exact h hd

theorem CommentScan.keep_bare {s : List Char} (h : s.IsChain NoComment)
    (hfirst : s.head? ≠ some '#') (before : Option Char)
    : keep (.bare before) s = s := by
  apply keep_eq_self h
  intro c hc
  have hne : c ≠ '#' := by
    rintro rfl
    exact hfirst hc
  simp [stopsAt, hne]

theorem stripComment_cons {c : Char} (hblank : isBlank c = false) (hhash : c ≠ '#') (s : List Char)
    : ∃ t, stripComment (c :: s) = c :: t := by
  have hkeep : CommentScan.keep (.bare none) (c :: s)
      = c :: CommentScan.keep (CommentScan.next (.bare none) c) s := by
    rw [CommentScan.keep, if_neg]
    simp [CommentScan.stopsAt, hhash]
  unfold stripComment trimEnd
  rw [hkeep, dropTail]
  split
  . rw [hblank]
    exact ⟨[], rfl⟩
  . exact ⟨_, rfl⟩

theorem stripComment_append {s word : List Char} (h : (s ++ word).IsChain NoComment)
    (hfirst : (s ++ word).head? ≠ some '#') (hword : isUnbroken word)
    : stripComment (s ++ word) = s ++ word := by
  obtain ⟨hne, hblank⟩ := isUnbroken_iff.mp hword
  unfold stripComment trimEnd
  rw [CommentScan.keep_bare h hfirst]
  exact dropTail_append hne hblank s

end Runbook.Source
