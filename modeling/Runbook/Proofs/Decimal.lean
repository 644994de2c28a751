import Mathlib.Data.List.TakeWhile
import Runbook.Json

/-!
This module contains what decimal numerals are made of, and the numeral of a whole number.
-/

namespace Runbook.Decimal

open Text

def isNumeralChar (c : Char) : Bool :=
  c.isDigit || ['+', '-', '.', 'e', 'E'].contains c

section Characters

theorem isNumeralChar_of_isDigit {c : Char} (h : c.isDigit) : isNumeralChar c := by
  unfold isNumeralChar
  rw [h]
  rfl

theorem isNumeralChar_of_digits? {s : List Char} (h : digits? s ≠ none)
    : ∀ c ∈ s, isNumeralChar c := by
  unfold digits? at h
  split at h
  . next hdigits =>
    intro c hc
    exact isNumeralChar_of_isDigit (List.all_eq_true.mp hdigits.2 c hc)
  . exact absurd rfl h

theorem isNumeralChar_of_exponent? {s : List Char} (h : exponent? s ≠ none)
    : ∀ c ∈ s, isNumeralChar c := by
  have hdigits {r : List Char} (f : Int → Int)
      (h : (do let n ← digits? r; pure (n : Int)).map f ≠ none)
      : ∀ c ∈ r, isNumeralChar c := by
    apply isNumeralChar_of_digits?
    intro hnone
    rw [hnone] at h
    exact h rfl
  unfold exponent? at h
  split at h
  . exact List.forall_mem_cons.mpr ⟨rfl, hdigits _ h⟩
  . exact List.forall_mem_cons.mpr ⟨rfl, hdigits _ h⟩
  . exact hdigits _ h

theorem isNumeralChar_of_tail? {s : List Char} (h : tail? s ≠ none)
    : ∀ c ∈ s, isNumeralChar c := by
  unfold tail? at h
  split at h
  . exact List.forall_mem_nil _
  . split at h
    . next hmark =>
      refine List.forall_mem_cons.mpr ⟨?_, isNumeralChar_of_exponent? h⟩
      obtain rfl | rfl := hmark <;> rfl
    . exact absurd rfl h

theorem isNumeralChar_takeWhile (s : List Char)
    : ∀ c ∈ s.takeWhile Char.isDigit, isNumeralChar c :=
  fun _ hc => isNumeralChar_of_isDigit (List.mem_takeWhile_imp hc)

theorem isNumeralChar_of_unsigned? {negative : Bool} {s : List Char}
    (h : unsigned? negative s ≠ none)
    : ∀ c ∈ s, isNumeralChar c := by
  rw [← List.takeWhile_append_dropWhile (p := Char.isDigit) (l := s)]
  refine List.forall_mem_append.mpr ⟨isNumeralChar_takeWhile s, ?_⟩
  unfold unsigned? at h
  dsimp only at h
  split at h
  . next r hrest =>
    split at h
    . exact absurd rfl h
    . rw [hrest, ← List.takeWhile_append_dropWhile (p := Char.isDigit) (l := r)]
      rw [ne_eq, Option.map_eq_none_iff] at h
      refine List.forall_mem_cons.mpr ⟨rfl, List.forall_mem_append.mpr ⟨?_, ?_⟩⟩
      . exact isNumeralChar_takeWhile r
      . exact isNumeralChar_of_tail? h
  . split at h
    . exact absurd rfl h
    . rw [ne_eq, Option.map_eq_none_iff] at h
      exact isNumeralChar_of_tail? h

theorem isNumeralChar_of_read? {s : List Char} (h : read? s ≠ none)
    : ∀ c ∈ s, isNumeralChar c := by
  unfold read? at h
  split at h
  . exact List.forall_mem_cons.mpr ⟨rfl, isNumeralChar_of_unsigned? h⟩
  . exact List.forall_mem_cons.mpr ⟨rfl, isNumeralChar_of_unsigned? h⟩
  . exact isNumeralChar_of_unsigned? h

end Characters

theorem isDigit_of_mem_toDigits (n : Nat) : ∀ c ∈ Nat.toDigits 10 n, c.isDigit :=
  fun _ hc => Nat.isDigit_of_mem_toDigits (by decide) (by decide) hc

theorem unsigned?_toDigits (negative : Bool) (n : Nat)
    : unsigned? negative (Nat.toDigits 10 n) = some ⟨negative, n, 0⟩ := by
  have hdigits := isDigit_of_mem_toDigits n
  have hvalue : ofDigits (Nat.toDigits 10 n) = n := Nat.ofDigitChars_ten_toDigits
  unfold unsigned?
  rw [List.takeWhile_eq_self_iff.mpr hdigits, List.dropWhile_eq_nil_iff.mpr hdigits]
  simp [tail?, hvalue]

theorem read?_intText (n : Int)
    : read? (Json.intText n) = some ⟨decide (n < 0), n.natAbs, 0⟩ := by
  unfold Json.intText
  split
  . next hneg =>
    rw [List.singleton_append, read?, unsigned?_toDigits, decide_eq_true hneg]
  . next hpos =>
    have hdigits := isDigit_of_mem_toDigits n.natAbs
    rw [List.nil_append, decide_eq_false hpos, ← unsigned?_toDigits]
    unfold read?
    split
    . next hsign =>
      rw [hsign] at hdigits
      exact absurd (hdigits '-' List.mem_cons_self) (by decide)
    . next hsign =>
      rw [hsign] at hdigits
      exact absurd (hdigits '+' List.mem_cons_self) (by decide)
    . rfl

end Runbook.Decimal
