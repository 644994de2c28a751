/-!
This module contains whole numbers in text: decimal digits, signed and unsigned reading within
bounds, and hexadecimal digits.
-/

namespace Runbook.Text

def digitValue (c : Char) : Nat :=
  c.toNat - '0'.toNat

def ofDigits (s : List Char) : Nat :=
  s.foldl (fun n c => 10 * n + digitValue c) 0

/-- Reads a row of digits, at least one, with no sign. -/
def digits? (s : List Char) : Option Nat :=
  if s ≠ [] ∧ s.all Char.isDigit then some (ofDigits s) else none

/-- Reads a whole number below `bound`; one plus sign may come first. -/
def natBelow? (bound : Nat) (s : List Char) : Option Nat :=
  (digits? (match s with | '+' :: r => r | _ => s)).filter (· < bound)

/-- Reads a signed whole number of 64 bits; one sign may come first. -/
def int64? (s : List Char) : Option Int :=
  match s with
  | '-' :: r => ((digits? r).filter (· ≤ 1 <<< 63)).map fun n => -(n : Int)
  | _ => (natBelow? (1 <<< 63) s).map fun n => (n : Int)

/-- One digit in base sixteen, in lower case. -/
def hexDigit (n : Nat) : Char :=
  "0123456789abcdef".toList.getD n '0'

/-- The last `width` digits of a number in base sixteen. -/
def hex (width n : Nat) : List Char :=
  match width with
  | 0 => []
  | w + 1 => hex w (n / 16) ++ [hexDigit (n % 16)]

/-- The value of a digit in base sixteen, in either case. -/
def hexValue? (c : Char) : Option Nat :=
  if c.isDigit then some (c.toNat - '0'.toNat)
  else if 'a' ≤ c ∧ c ≤ 'f' then some (c.toNat - 'a'.toNat + 10)
  else if 'A' ≤ c ∧ c ≤ 'F' then some (c.toNat - 'A'.toNat + 10)
  else none

/-- The last `width` digits of a number in base ten, with zeros in front. -/
def padded (width n : Nat) : List Char :=
  let ds := Nat.toDigits 10 n
  List.replicate (width - ds.length) '0' ++ ds

end Runbook.Text
