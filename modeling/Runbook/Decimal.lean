import Runbook.Text.Digits

/-!
This module contains decimal numerals: a signed whole number of digits times a power of ten, and
the reader for their written form.
-/

namespace Runbook

/-- The number `± digits · 10 ^ exponent`. -/
structure Decimal where
  negative : Bool
  digits : Nat
  exponent : Int
  deriving DecidableEq, Repr

namespace Decimal

open Text

/-- Reads an exponent: a sign may come first, and at least one digit follows. -/
def exponent? (s : List Char) : Option Int :=
  match s with
  | '-' :: r => (digits? r).map fun n => -(n : Int)
  | '+' :: r => (digits? r).map fun n => (n : Int)
  | r => (digits? r).map fun n => (n : Int)

/-- Reads what follows the digits: nothing, or `e` or `E` with an exponent. -/
def tail? (s : List Char) : Option Int :=
  match s with
  | [] => some 0
  | c :: r => if c = 'e' ∨ c = 'E' then exponent? r else none

/-- Reads a numeral without its sign: digits with at most one point among or beside them. -/
def unsigned? (negative : Bool) (s : List Char) : Option Decimal :=
  let whole := s.takeWhile Char.isDigit
  let rest := s.dropWhile Char.isDigit
  let fraction := match rest with
    | '.' :: r => r.takeWhile Char.isDigit
    | _ => []
  let rest := match rest with
    | '.' :: r => r.dropWhile Char.isDigit
    | r => r
  if whole ++ fraction = [] then
    none
  else
    (tail? rest).map fun e => ⟨negative, ofDigits (whole ++ fraction), e - fraction.length⟩

/-- Reads a numeral; one sign may come first. -/
def read? (s : List Char) : Option Decimal :=
  match s with
  | '-' :: r => unsigned? true r
  | '+' :: r => unsigned? false r
  | r => unsigned? false r

end Decimal

end Runbook
