import Runbook.Decimal

/-!
This module contains the finite numbers of the 64 bit binary format: their one canonical form, the
rounding of a fraction to the nearest of them, and the reading of decimal numerals.
-/

namespace Runbook

/--
The bounds of the canonical form: 53 significant bits, or fewer at the smallest exponent.
-/
def Binary64.IsCanonical (significand : Nat) (exponent : Int) : Prop :=
  significand < 1 <<< 53 ∧ -1074 ≤ exponent ∧ exponent ≤ 971 ∧
    (1 <<< 52 ≤ significand ∨ exponent = -1074)

instance (m : Nat) (q : Int) : Decidable (Binary64.IsCanonical m q) :=
  inferInstanceAs (Decidable (_ ∧ _))

/-- The number `± significand · 2 ^ exponent`; zero has a sign as well. -/
structure Binary64 where
  negative : Bool
  significand : Nat
  exponent : Int
  canonical : Binary64.IsCanonical significand exponent
  deriving DecidableEq

namespace Binary64

/-- The zero of either sign. -/
def zero (negative : Bool) : Binary64 :=
  ⟨negative, 0, -1074, by decide⟩

/-- Whether two numbers are equal as numbers: the sign of zero does not count. -/
def sameValue (x y : Binary64) : Bool :=
  x = y || (x.significand = 0 && y.significand = 0)

/-- The nearest whole number to `num / den`; a half goes to the even neighbour. -/
def roundHalfEven (num den : Nat) : Nat :=
  let low := num / den
  let twice := 2 * (num % den)
  if den < twice ∨ (twice = den ∧ low % 2 = 1) then low + 1 else low

/-- The largest `e` with `2 ^ e ≤ num / den`. -/
def floorLog2 (num den : Nat) : Int :=
  let e : Int := (num.log2 : Int) - den.log2
  if den <<< e.toNat ≤ num <<< (-e).toNat then e else e - 1

/-- The nearest number to `± num / den`, an exact tie going to the even significand; none when it
is too large to be finite. -/
def ofFraction? (negative : Bool) (num den : Nat) : Option Binary64 :=
  if num = 0 then
    some (zero negative)
  else
    let q := max (-1074) (floorLog2 num den - 52)
    let m := roundHalfEven (num <<< (-q).toNat) (den <<< q.toNat)
    let (m, q) := if m = 1 <<< 53 then (1 <<< 52, q + 1) else (m, q)
    if h : IsCanonical m q then some ⟨negative, m, q, h⟩ else none

/-- The nearest number to a decimal; none when it is too large to be finite. -/
def ofDecimal? (d : Decimal) : Option Binary64 :=
  let magnitude := (Nat.toDigits 10 d.digits).length + d.exponent
  if d.digits = 0 ∨ magnitude < -330 then
    some (zero d.negative)
  else if 310 < magnitude then
    none
  else
    ofFraction? d.negative (d.digits * Nat.pow 10 d.exponent.toNat)
      (Nat.pow 10 (-d.exponent).toNat)

/-- Reads a decimal numeral as the nearest finite number. -/
def read? (s : List Char) : Option Binary64 :=
  (Decimal.read? s).bind ofDecimal?

end Binary64

end Runbook
