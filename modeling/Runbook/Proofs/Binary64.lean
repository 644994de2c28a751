import Mathlib.Algebra.Order.Field.Power
import Mathlib.Algebra.Order.Ring.Rat
import Mathlib.Tactic.Linarith
import Mathlib.Tactic.Positivity
import Mathlib.Tactic.Ring
import Runbook.Proofs.Decimal

/-!
This module contains the values of doubles. The canonical form of a value is its only one, so that
two numbers are the same exactly if their values are. A whole number is read as the nearest one of
at most 53 significant bits.
-/

namespace Runbook.Binary64

def magnitude (x : Binary64) : ℚ :=
  x.significand * 2 ^ x.exponent

/-- The value of a number. -/
def toRat (x : Binary64) : ℚ :=
  if x.negative then -x.magnitude else x.magnitude

section Value

variable {x y : Binary64}

theorem magnitude_nonneg (x : Binary64) : 0 ≤ x.magnitude := by
  unfold magnitude
  positivity

theorem magnitude_eq_zero_iff : x.magnitude = 0 ↔ x.significand = 0 := by
  unfold magnitude
  simp [zpow_ne_zero]

theorem exponent_le_of_magnitude_eq (h : x.magnitude = y.magnitude) : y.exponent ≤ x.exponent := by
  by_contra hlt
  rw [not_le] at hlt
  obtain ⟨n, hn⟩ := Int.exists_add_of_le (Int.add_one_le_of_lt hlt)
  have hsignificand : x.significand = y.significand * 2 ^ (1 + n) := by
    have hpow : (2 : ℚ) ^ y.exponent = 2 ^ (1 + n) * 2 ^ x.exponent := by
      rw [hn, add_assoc, add_comm, zpow_add₀ two_ne_zero]
      norm_cast
    unfold magnitude at h
    rw [hpow, ← mul_assoc] at h
    exact_mod_cast mul_right_cancel₀ (zpow_ne_zero x.exponent two_ne_zero) h
  have hlarge : 2 ^ 52 ≤ y.significand := by
    have hcanonical := y.canonical.2.2.2
    have hleast := x.canonical.2.1
    omega
  have hpow : 2 ≤ 2 ^ (1 + n) := by
    rw [pow_add]
    exact Nat.le_mul_of_pos_right 2 (by positivity)
  have hbound := x.canonical.1
  have hproduct := Nat.mul_le_mul hlarge hpow
  omega

theorem eq_of_magnitude_eq (hsign : x.negative = y.negative) (h : x.magnitude = y.magnitude)
    : x = y := by
  have hexponent : x.exponent = y.exponent :=
    le_antisymm (exponent_le_of_magnitude_eq h.symm) (exponent_le_of_magnitude_eq h)
  have hsignificand : x.significand = y.significand := by
    unfold magnitude at h
    rw [hexponent] at h
    exact_mod_cast mul_right_cancel₀ (zpow_ne_zero y.exponent two_ne_zero) h
  cases x
  cases y
  simp_all

theorem sameValue_iff_toRat_eq : x.sameValue y = true ↔ x.toRat = y.toRat := by
  unfold sameValue
  simp only [Bool.or_eq_true, decide_eq_true_eq, Bool.and_eq_true]
  constructor
  . rintro (rfl | ⟨hx, hy⟩)
    . rfl
    . unfold toRat
      rw [magnitude_eq_zero_iff.mpr hx, magnitude_eq_zero_iff.mpr hy]
      simp
  . intro h
    have hx := magnitude_nonneg x
    have hy := magnitude_nonneg y
    -- with different signs both are zero
    have hzero (heq : x.magnitude + y.magnitude = 0) : x.significand = 0 ∧ y.significand = 0 :=
      ⟨magnitude_eq_zero_iff.mp (by linarith), magnitude_eq_zero_iff.mp (by linarith)⟩
    unfold toRat at h
    cases hxsign : x.negative <;> cases hysign : y.negative <;>
      simp only [hxsign, hysign, Bool.false_eq_true, if_true, if_false] at h
    . exact .inl (eq_of_magnitude_eq (hxsign.trans hysign.symm) h)
    . exact .inr (hzero (by linarith))
    . exact .inr (hzero (by linarith))
    . exact .inl (eq_of_magnitude_eq (hxsign.trans hysign.symm) (neg_inj.mp h))

end Value

section Rounding

variable {n d : Nat}

theorem roundHalfEven_cases (n d : Nat)
    : (roundHalfEven n d = n / d ∧ 2 * (n % d) ≤ d) ∨
      (roundHalfEven n d = n / d + 1 ∧ d ≤ 2 * (n % d)) := by
  unfold roundHalfEven
  dsimp only
  split
  . exact .inr ⟨rfl, by omega⟩
  . exact .inl ⟨rfl, by omega⟩

theorem roundHalfEven_one (n : Nat) : roundHalfEven n 1 = n := by
  obtain ⟨hround, _⟩ | ⟨_, hhalf⟩ := roundHalfEven_cases n 1
  . rw [hround, Nat.div_one]
  . omega

theorem roundHalfEven_bounds {a b : Nat} (hlow : a * d ≤ n) (hhigh : n < b * d)
    : a ≤ roundHalfEven n d ∧ roundHalfEven n d ≤ b := by
  have hd : 0 < d := Nat.pos_of_mul_pos_left (Nat.zero_lt_of_lt hhigh)
  have hdiv : a ≤ n / d := (Nat.le_div_iff_mul_le hd).mpr hlow
  have hlt : n / d < b := (Nat.div_lt_iff_lt_mul hd).mpr hhigh
  obtain ⟨hround, _⟩ | ⟨hround, _⟩ := roundHalfEven_cases n d <;> omega

/-- A fraction is rounded to one of the nearest whole numbers. -/
theorem roundHalfEven_nearest (hd : 0 < d) (n j : Nat)
    : ((roundHalfEven n d * d : Nat) - n : Int).natAbs ≤ ((j * d : Nat) - n : Int).natAbs := by
  have hn := Nat.div_add_mod' n d
  have hmod := Nat.mod_lt n hd
  have hmultiple : j * d ≤ n / d * d ∨ n / d * d + d ≤ j * d := by
    cases Nat.lt_or_ge (n / d) j with
    | inl hj =>
      rw [← Nat.succ_mul]
      exact .inr (Nat.mul_le_mul_right d hj)
    | inr hj => exact .inl (Nat.mul_le_mul_right d hj)
  obtain ⟨hround, hhalf⟩ | ⟨hround, hhalf⟩ := roundHalfEven_cases n d
  . rw [hround]
    omega
  . rw [hround, Nat.succ_mul]
    omega

def unit (n : Nat) : Nat :=
  2 ^ (n.log2 - 52)

/-- The nearest whole number of at most 53 significant bits; a half goes to the even neighbour. -/
def nearest (n : Nat) : Nat :=
  roundHalfEven n (unit n) * unit n

@[inherit_doc nearest]
def roundWhole (n : Int) : Int :=
  if n < 0 then -nearest n.natAbs else nearest n.natAbs

theorem unit_pos (n : Nat) : 0 < unit n :=
  Nat.two_pow_pos _

theorem unit_eq_one (h : n < 2 ^ 53) : unit n = 1 := by
  have hlog : n.log2 < 53 := by
    by_cases hn : n = 0
    . rw [hn]
      decide
    . exact (Nat.log2_lt hn).mpr h
  unfold unit
  rw [Nat.sub_eq_zero_of_le (by omega), Nat.pow_zero]

theorem unit_bounds (h : 2 ^ 52 ≤ n) : 2 ^ 52 * unit n ≤ n ∧ n < 2 ^ 53 * unit n := by
  have hn : n ≠ 0 := by omega
  obtain ⟨e, he⟩ := Nat.exists_eq_add_of_le ((Nat.le_log2 hn).mpr h)
  have hlow := Nat.log2_self_le hn
  have hhigh : n < 2 ^ (n.log2 + 1) := Nat.lt_log2_self
  unfold unit
  rw [he, Nat.add_sub_cancel_left, ← Nat.pow_add, ← Nat.pow_add]
  rw [he] at hlow
  rw [he, Nat.add_right_comm] at hhigh
  exact ⟨hlow, hhigh⟩

theorem nearest_eq_self (h : n < 2 ^ 53) : nearest n = n := by
  unfold nearest
  rw [unit_eq_one h, roundHalfEven_one, Nat.mul_one]

theorem le_nearest (h : 2 ^ 53 ≤ n) : 2 ^ 53 ≤ nearest n := by
  obtain ⟨hlow, hhigh⟩ := unit_bounds (n := n) (by omega)
  have hunit : 2 ≤ unit n := by omega
  exact Nat.mul_le_mul (roundHalfEven_bounds hlow hhigh).1 hunit

/-- A whole number of at most 53 significant bits. -/
def IsShort (k : Nat) : Prop :=
  ∃ a e : Nat, a ≤ 2 ^ 53 ∧ k = a * 2 ^ e

theorem isShort_nearest (n : Nat) : IsShort (nearest n) := by
  refine ⟨roundHalfEven n (unit n), n.log2 - 52, ?_, rfl⟩
  cases Nat.lt_or_ge n (2 ^ 53) with
  | inl hsmall =>
    rw [unit_eq_one hsmall, roundHalfEven_one]
    exact hsmall.le
  | inr hlarge =>
    obtain ⟨hlow, hhigh⟩ := unit_bounds (n := n) (by omega)
    exact (roundHalfEven_bounds hlow hhigh).2

theorem nearest_le {k : Nat} (hk : IsShort k) (n : Nat)
    : (nearest n - n : Int).natAbs ≤ (k - n : Int).natAbs := by
  obtain ⟨a, e, ha, rfl⟩ := hk
  cases Nat.lt_or_ge n (2 ^ 53) with
  | inl hsmall =>
    rw [nearest_eq_self hsmall]
    omega
  | inr hlarge =>
    obtain ⟨hlow, _⟩ := unit_bounds (n := n) (by omega)
    have hmultiple (j : Nat) := roundHalfEven_nearest (unit_pos n) n j
    cases Nat.lt_or_ge e (n.log2 - 52) with
    | inl hfine =>
      -- all finer numbers of 53 bits lie below the multiples of the last place around `n`
      have hpow : 2 ^ (e + 1) ≤ unit n := Nat.pow_le_pow_right (by decide) hfine
      have hproduct := Nat.mul_le_mul_right (2 ^ e) ha
      have hleast := hmultiple (2 ^ 52)
      unfold nearest
      rw [Nat.pow_succ] at hpow
      omega
    | inr hcoarse =>
      have hsplit : a * 2 ^ e = a * 2 ^ (e - (n.log2 - 52)) * unit n := by
        unfold unit
        rw [Nat.mul_assoc, ← Nat.pow_add, Nat.sub_add_cancel hcoarse]
      rw [hsplit]
      exact hmultiple _

theorem nearest_eq_self_iff {n : Nat} : nearest n = n ↔ IsShort n := by
  constructor
  . intro h
    rw [← h]
    exact isShort_nearest n
  . intro h
    have hdistance := nearest_le h n
    omega

theorem roundWhole_eq_self_iff {n : Int} : roundWhole n = n ↔ IsShort n.natAbs := by
  rw [← nearest_eq_self_iff]
  unfold roundWhole
  omega

theorem isShort_of_lt {n : Nat} (h : n < 2 ^ 53) : IsShort n :=
  nearest_eq_self_iff.mp (nearest_eq_self h)

theorem roundWhole_eq_iff_of_lt {m n : Int} (hm : m.natAbs < 2 ^ 53)
    : roundWhole m = roundWhole n ↔ m = n := by
  refine ⟨fun h => ?_, congrArg roundWhole⟩
  rw [roundWhole_eq_self_iff.mpr (isShort_of_lt hm)] at h
  cases Nat.lt_or_ge n.natAbs (2 ^ 53) with
  | inl hn => rw [h, roundWhole_eq_self_iff.mpr (isShort_of_lt hn)]
  | inr hn =>
    have hlarge := le_nearest hn
    unfold roundWhole at h
    omega

end Rounding

section Reading

theorem floorLog2_one {k : Nat} (hk : k ≠ 0) : floorLog2 k 1 = k.log2 := by
  have hlow := Nat.log2_self_le hk
  have hone : Nat.log2 1 = 0 := by decide
  unfold floorLog2
  simp [Nat.shiftLeft_eq, hone, hlow]

theorem significand_whole {k : Nat} (hk : k ≠ 0)
    : let q : Int := k.log2 - 52
      let m := roundHalfEven (k <<< (-q).toNat) (1 <<< q.toNat)
      2 ^ 52 ≤ m ∧ m ≤ 2 ^ 53 ∧ (m : ℚ) * 2 ^ q = nearest k := by
  intro q m
  cases Nat.lt_or_ge k (2 ^ 52) with
  | inr hlarge =>
    obtain ⟨hlow, hhigh⟩ := unit_bounds hlarge
    have hq : q = (k.log2 - 52 : Nat) := by
      have := (Nat.le_log2 hk).mpr hlarge
      omega
    have hm : m = roundHalfEven k (unit k) := by
      simp [m, hq, Nat.shiftLeft_eq, unit]
    obtain ⟨hleast, hmost⟩ := roundHalfEven_bounds hlow hhigh
    rw [hm, hq]
    refine ⟨hleast, hmost, ?_⟩
    unfold nearest unit
    norm_cast
  | inl hsmall =>
    have hlog : k.log2 < 52 := (Nat.log2_lt hk).mpr hsmall
    obtain ⟨e, he⟩ := Nat.exists_eq_add_of_le hlog.le
    have hq : q = -e := by omega
    have hm : m = k * 2 ^ e := by
      simp [m, hq, Nat.shiftLeft_eq, roundHalfEven_one]
    have hlow : 2 ^ 52 ≤ k * 2 ^ e := by
      calc
        2 ^ 52 = 2 ^ k.log2 * 2 ^ e := by rw [← Nat.pow_add, he]
        _ ≤ k * 2 ^ e := Nat.mul_le_mul_right _ (Nat.log2_self_le hk)
    have hhigh : k * 2 ^ e ≤ 2 ^ 53 := by
      calc
        k * 2 ^ e ≤ 2 ^ (k.log2 + 1) * 2 ^ e := Nat.mul_le_mul_right _ Nat.lt_log2_self.le
        _ = 2 ^ 53 := by rw [← Nat.pow_add, Nat.add_right_comm, ← he]
    rw [hm, hq, nearest_eq_self (by omega)]
    refine ⟨hlow, hhigh, ?_⟩
    rw [zpow_neg, zpow_natCast]
    push_cast
    exact mul_inv_cancel_right₀ (by positivity) _

theorem ofFraction?_whole {k : Nat} (hk : k ≠ 0) (hbound : k < 2 ^ 64) (negative : Bool)
    : ∃ x, ofFraction? negative k 1 = some x ∧ x.negative = negative ∧ x.magnitude = nearest k := by
  obtain ⟨hleast, hmost, hvalue⟩ := significand_whole hk
  have hlog : k.log2 < 64 := (Nat.log2_lt hk).mpr hbound
  have hq : max (-1074) ((k.log2 : Int) - 52) = k.log2 - 52 := by omega
  unfold ofFraction?
  dsimp only
  rw [if_neg hk, floorLog2_one hk, hq]
  generalize roundHalfEven (k <<< (-((k.log2 : Int) - 52)).toNat)
    (1 <<< ((k.log2 : Int) - 52).toNat) = m at hleast hmost hvalue
  by_cases hm : m = 1 <<< 53
  . have hcanonical : IsCanonical (1 <<< 52) ((k.log2 : Int) - 52 + 1) :=
      ⟨by decide, by omega, by omega, .inl le_rfl⟩
    rw [if_pos hm]
    dsimp only
    rw [dif_pos hcanonical]
    refine ⟨_, rfl, rfl, ?_⟩
    have hdouble : ((1 <<< 53 : Nat) : ℚ) = (1 <<< 52 : Nat) * 2 := by norm_cast
    unfold magnitude
    rw [← hvalue, hm, hdouble, zpow_add_one₀ two_ne_zero]
    ring
  . have hcanonical : IsCanonical m ((k.log2 : Int) - 52) :=
      ⟨by omega, by omega, by omega, .inl (by omega)⟩
    rw [if_neg hm]
    dsimp only
    rw [dif_pos hcanonical]
    exact ⟨_, rfl, rfl, hvalue⟩

theorem ofDecimal?_whole {k : Nat} (hbound : k < 2 ^ 64) (negative : Bool)
    : ∃ x, ofDecimal? ⟨negative, k, 0⟩ = some x ∧ x.negative = negative ∧
        x.magnitude = nearest k := by
  have hlength : (Nat.toDigits 10 k).length ≤ 20 := by
    rw [Nat.length_toDigits_le_iff (by decide) (by decide)]
    exact hbound.trans (by decide)
  unfold ofDecimal?
  dsimp only
  by_cases hk : k = 0
  . rw [if_pos (.inl hk)]
    refine ⟨_, rfl, rfl, ?_⟩
    rw [hk, magnitude_eq_zero_iff.mpr rfl]
    rfl
  . rw [if_neg (by omega), if_neg (by omega)]
    rw [show k * Nat.pow 10 (Int.toNat 0) = k from Nat.mul_one k]
    exact ofFraction?_whole hk hbound negative

theorem read?_intText {n : Int} (hbound : n.natAbs < 2 ^ 64)
    : ∃ x, read? (Json.intText n) = some x ∧ x.toRat = roundWhole n := by
  obtain ⟨x, hread, hsign, hvalue⟩ := ofDecimal?_whole hbound (decide (n < 0))
  refine ⟨x, ?_, ?_⟩
  . unfold read?
    rw [Decimal.read?_intText]
    exact hread
  . unfold toRat roundWhole
    rw [hsign, hvalue]
    split <;> simp_all

end Reading

end Runbook.Binary64
