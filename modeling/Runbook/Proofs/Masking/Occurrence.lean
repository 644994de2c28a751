import Mathlib.Data.List.Infix
import Runbook.Masking
import Runbook.Proofs.Replacement

/-!
This module contains what masking one secret does to a text: the text is gone through occurrence by
occurrence, and a text that can share no character with the secret is passed over.
-/

namespace Runbook

namespace Text

/--
Two texts that cannot share a character of a third one: neither of them stands within the other one,
and neither of them ends with what the other one begins with.
-/
structure Apart (v w : List Char) : Prop where
  not_within : ¬ v <:+: w
  not_around : ¬ w <:+: v
  ends : ∀ o, o <:+ v → o <+: w → o = []
  begins : ∀ o, o <+: v → o <:+ w → o = []

instance (v w : List Char) : Decidable (Apart v w) :=
  decidable_of_iff
    (¬ v <:+: w ∧ ¬ w <:+: v ∧
      (∀ o ∈ v.tails, o <+: w → o = []) ∧ (∀ o ∈ v.inits, o <:+ w → o = []))
    (by
      simp only [List.mem_tails, List.mem_inits]
      exact ⟨fun ⟨h₁, h₂, h₃, h₄⟩ => ⟨h₁, h₂, h₃, h₄⟩, fun ⟨h₁, h₂, h₃, h₄⟩ => ⟨h₁, h₂, h₃, h₄⟩⟩)

namespace Apart

variable {v w : List Char}

theorem symm (h : Apart v w) : Apart w v where
  not_within := h.not_around
  not_around := h.not_within
  ends o hsuffix hstart := h.begins o hstart hsuffix
  begins o hstart hsuffix := h.ends o hsuffix hstart

theorem not_prefix_append (h : Apart v w) {u : List Char} (hu : u ≠ []) (hsuffix : u <:+ v)
    (t : List Char)
    : ¬ w <+: u ++ t := by
  intro hstart
  obtain hw | ⟨r, hw, _⟩ := prefix_append_cases hstart
  . exact h.not_around (hw.isInfix.trans hsuffix.isInfix)
  . apply hu
    apply h.ends u hsuffix
    rw [hw]
    exact List.prefix_append u r

theorem prefix_of_prefix_append (h : Apart v w) {u t : List Char} (hw : w <+: u ++ (v ++ t))
    : w <+: u := by
  obtain hu | ⟨r, hr, hbehind⟩ := prefix_append_cases hw
  . exact hu
  . have hsuffix : r <:+ w := by
      rw [hr]
      exact List.suffix_append u r
    obtain hstart | ⟨r', hr', _⟩ := prefix_append_cases hbehind
    . rw [hr, h.begins r hstart hsuffix, List.append_nil]
    . refine absurd ?_ h.not_within
      rw [hr'] at hsuffix
      exact (List.prefix_append v r').isInfix.trans hsuffix.isInfix

end Apart

end Text

namespace Masking

open Text

def IsLong (secret : List Char) : Prop :=
  leastBytes ≤ byteSize secret

instance (secret : List Char) : Decidable (IsLong secret) :=
  inferInstanceAs (Decidable (leastBytes ≤ byteSize secret))

theorem IsLong.ne_nil {secret : List Char} (h : IsLong secret) : secret ≠ [] := by
  rintro rfl
  exact absurd h (by decide)

def mark : List Char :=
  redacted.toList

section One

variable {v w : List Char}

theorem maskOne_of_not_isLong (h : ¬ IsLong w) (s : List Char) : maskOne s w = s :=
  if_neg h

theorem maskOne_of_isLong (h : IsLong w) (s : List Char)
    : maskOne s w = replaceAll (literal? w) mark s :=
  if_pos h

theorem literal?_eq_none {s : List Char} (h : ¬ w <+: s) : literal? w s = none := by
  unfold literal?
  rw [if_neg]
  rwa [List.isPrefixOf_iff_prefix]

theorem literal?_append (w rest : List Char) : literal? w (w ++ rest) = some ((), w.length) := by
  unfold literal?
  rw [if_pos]
  rw [List.isPrefixOf_iff_prefix]
  exact List.prefix_append w rest

theorem isSearch_literal? (h : w ≠ []) : IsSearch (literal? w) := by
  intro s value n hs
  unfold literal? at hs
  split at hs
  . next hstart =>
    rw [List.isPrefixOf_iff_prefix] at hstart
    simp only [Option.some.injEq, Prod.mk.injEq] at hs
    rw [← hs.2]
    exact ⟨List.length_pos_iff.mpr h, hstart.length_le⟩
  . cases hs

@[simp]
theorem maskOne_nil (w : List Char) : maskOne [] w = [] := by
  unfold maskOne
  split <;> rfl

theorem maskOne_occurrence (h : IsLong w) (rest : List Char)
    : maskOne (w ++ rest) w = mark ++ maskOne rest w := by
  rw [maskOne_of_isLong h, maskOne_of_isLong h]
  exact replaceAll_found h.ne_nil (literal?_append w rest)

theorem maskOne_cons {c : Char} {cs : List Char} (h : ¬ w <+: c :: cs)
    : maskOne (c :: cs) w = c :: maskOne cs w := by
  by_cases hlong : IsLong w
  . rw [maskOne_of_isLong hlong, maskOne_of_isLong hlong]
    exact replaceAll_cons (literal?_eq_none h)
  . rw [maskOne_of_not_isLong hlong, maskOne_of_not_isLong hlong]

/-- What is said of texts occurrence by occurrence of a secret, from the end to the beginning. -/
theorem mask_induction (h : IsLong w) {motive : List Char → Prop} (nil : motive [])
    (occurrence : ∀ rest, motive rest → motive (w ++ rest))
    (char : ∀ c cs, ¬ w <+: c :: cs → motive cs → motive (c :: cs)) (s : List Char)
    : motive s := by
  induction s using replacement_induction (isSearch_literal? h.ne_nil) with
  | nil => exact nil
  | found word rest value hword hfind ih =>
    unfold literal? at hfind
    split at hfind
    . next hstart =>
      rw [List.isPrefixOf_iff_prefix] at hstart
      simp only [Option.some.injEq, Prod.mk.injEq] at hfind
      have heq : w = word := by
        obtain ⟨r, hr⟩ := hstart
        exact (List.append_inj hr hfind.2).1
      rw [← heq]
      exact occurrence rest ih
    . cases hfind
  | char c cs hnone ih =>
    refine char c cs ?_ ih
    rintro ⟨rest, hrest⟩
    rw [← hrest, literal?_append] at hnone
    cases hnone

theorem maskOne_append (h : Apart v w) (t : List Char)
    : maskOne (v ++ t) w = v ++ maskOne t w := by
  by_cases hlong : IsLong w
  . rw [maskOne_of_isLong hlong, maskOne_of_isLong hlong]
    apply replaceAll_append
    intro u hu hsuffix
    exact literal?_eq_none (h.not_prefix_append hu hsuffix t)
  . rw [maskOne_of_not_isLong hlong, maskOne_of_not_isLong hlong]

theorem prefix_of_prefix_maskOne (hmark : Apart mark w) (hlong : IsLong v) (s : List Char)
    {u : List Char} (h : w <+: u ++ maskOne s v)
    : w <+: u ++ s := by
  induction s using mask_induction hlong generalizing u with
  | nil => rwa [maskOne_nil] at h
  | occurrence rest _ =>
    rw [maskOne_occurrence hlong] at h
    exact (hmark.prefix_of_prefix_append h).trans (List.prefix_append u _)
  | char c cs hnone ih =>
    rw [maskOne_cons hnone, List.append_cons] at h
    rw [List.append_cons]
    exact ih h

theorem maskOne_comm (h : Apart v w) (hv : Apart mark v) (hw : Apart mark w) (hv' : IsLong v)
    (hw' : IsLong w) (s : List Char)
    : maskOne (maskOne s v) w = maskOne (maskOne s w) v := by
  -- the next occurrence is one of `v` or one of `w`, and the other secret cannot begin within it
  induction hlength : s.length using Nat.strongRecOn generalizing s with
  | ind length ih =>
    by_cases hvs : v <+: s
    . obtain ⟨rest, rfl⟩ := hvs
      have hshorter : rest.length < length := by
        have := List.length_pos_iff.mpr hv'.ne_nil
        rw [← hlength, List.length_append]
        omega
      rw [maskOne_occurrence hv', maskOne_append hw, maskOne_append h, maskOne_occurrence hv']
      rw [ih _ hshorter rest rfl]
    . by_cases hws : w <+: s
      . obtain ⟨rest, rfl⟩ := hws
        have hshorter : rest.length < length := by
          have := List.length_pos_iff.mpr hw'.ne_nil
          rw [← hlength, List.length_append]
          omega
        rw [maskOne_append h.symm, maskOne_occurrence hw', maskOne_occurrence hw']
        rw [maskOne_append hv, ih _ hshorter rest rfl]
      . cases s with
        | nil => simp
        | cons c cs =>
          have hshorter : cs.length < length := by
            rw [← hlength]
            exact Nat.lt_succ_self _
          have hv_next : ¬ v <+: c :: maskOne cs w :=
            fun hin => hvs (prefix_of_prefix_maskOne hv hw' cs (u := [c]) hin)
          have hw_next : ¬ w <+: c :: maskOne cs v :=
            fun hin => hws (prefix_of_prefix_maskOne hw hv' cs (u := [c]) hin)
          rw [maskOne_cons hvs, maskOne_cons hws, maskOne_cons hv_next, maskOne_cons hw_next]
          rw [ih _ hshorter cs rfl]

theorem maskOne_around_mark (hmark : IsLong w → Apart mark w) (u t : List Char)
    : maskOne (u ++ (mark ++ t)) w = maskOne u w ++ (mark ++ maskOne t w) := by
  by_cases hlong : IsLong w
  case neg => simp only [maskOne_of_not_isLong hlong]
  specialize hmark hlong
  induction u using mask_induction hlong with
  | nil =>
    rw [maskOne_nil, List.nil_append, List.nil_append]
    exact maskOne_append hmark t
  | occurrence rest ih =>
    rw [List.append_assoc, maskOne_occurrence hlong, maskOne_occurrence hlong, ih]
    rw [List.append_assoc]
  | char c cs hnone ih =>
    have hnone' : ¬ w <+: c :: (cs ++ (mark ++ t)) :=
      fun hin => hnone (hmark.prefix_of_prefix_append (u := c :: cs) hin)
    rw [List.cons_append, maskOne_cons hnone, maskOne_cons hnone', ih]
    rfl

theorem eq_nil_of_maskOne {s : List Char} (h : maskOne s w = []) : s = [] := by
  by_cases hlong : IsLong w
  case neg => rwa [maskOne_of_not_isLong hlong] at h
  cases s with
  | nil => rfl
  | cons c cs =>
    by_cases hws : w <+: c :: cs
    . obtain ⟨rest, hrest⟩ := hws
      rw [← hrest, maskOne_occurrence hlong] at h
      cases h
    . rw [maskOne_cons hws] at h
      cases h

theorem maskOne_of_not_infix {s : List Char} (h : ¬ w <:+: s) : maskOne s w = s := by
  induction s with
  | nil => exact maskOne_nil w
  | cons c cs ih =>
    rw [maskOne_cons fun hstart => h hstart.isInfix]
    rw [ih fun hin => h (hin.trans (List.suffix_cons c cs).isInfix)]

theorem maskOne_of_infix (hlong : IsLong w) {s : List Char} (h : w <:+: s)
    : ∃ x y, s = x ++ (w ++ y) ∧ maskOne s w = x ++ (mark ++ maskOne y w) := by
  induction s using mask_induction hlong with
  | nil => exact absurd (List.infix_nil.mp h) hlong.ne_nil
  | occurrence rest _ => exact ⟨[], rest, rfl, maskOne_occurrence hlong rest⟩
  | char c cs hnone ih =>
    rw [List.infix_cons_iff] at h
    obtain ⟨x, y, hcs, hmasked⟩ := ih (h.resolve_left hnone)
    refine ⟨c :: x, y, by rw [hcs]; rfl, ?_⟩
    rw [maskOne_cons hnone, hmasked]
    rfl

end One

end Masking

end Runbook
