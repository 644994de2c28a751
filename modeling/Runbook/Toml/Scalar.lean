import Runbook.Binary64
import Runbook.Text.Digits

/-!
This module contains the values of TOML that are written without brackets: strings, numbers, truth
values, dates and times.
-/

namespace Runbook

/-- A value of a TOML document. What a float or a date stands for is not kept. -/
inductive Toml where
  | string (value : String)
  | integer (value : Int)
  | float
  | boolean (value : Bool)
  | time
  | array (items : List Toml)
  | table (entries : List (String × Toml))

namespace Toml

open Text

/-- Whether a character may stand in a string or a comment as it is. -/
def isPrintable (c : Char) : Bool :=
  c = '\t' || (32 ≤ c.toNat && c.toNat ≠ 127)

def ofHex? (s : List Char) : Option Nat :=
  s.foldlM (fun n c => (hexValue? c).map (16 * n + ·)) 0

/-- The character of an escape with a number of hexadecimal digits, and the rest of the text. -/
def readCode (width : Nat) (s : List Char) : Option (Char × List Char) :=
  if s.length < width then
    none
  else
    (ofHex? (s.take width)).bind fun n =>
      if h : n.isValidChar then some (Char.ofNatAux n h, s.drop width) else none

/-- The character after a backslash, and the rest of the text. -/
def readEscape (s : List Char) : Option (Char × List Char) :=
  match s with
  | 'b' :: r => some ('\x08', r)
  | 't' :: r => some ('\t', r)
  | 'n' :: r => some ('\n', r)
  | 'f' :: r => some ('\x0c', r)
  | 'r' :: r => some ('\r', r)
  | 'e' :: r => some ('\x1b', r)
  | '"' :: r => some ('"', r)
  | '\\' :: r => some ('\\', r)
  | 'x' :: r => readCode 2 r
  | 'u' :: r => readCode 4 r
  | 'U' :: r => readCode 8 r
  | _ => none

def dropLineEnd (s : List Char) : Option (List Char) :=
  match s with
  | '\n' :: r => some r
  | '\r' :: '\n' :: r => some r
  | _ => none

def isGap (c : Char) : Bool :=
  c = ' ' || c = '\t'

def dropBlankLines : List Char → List Char
  | [] => []
  | '\r' :: '\n' :: r => dropBlankLines r
  | c :: r => if isGap c || c = '\n' then dropBlankLines r else c :: r

/-- Drops blanks and line ends, of which there has to be one, after a backslash at a line's end. -/
def dropFold (s : List Char) : Option (List Char) :=
  (dropLineEnd (s.dropWhile isGap)).map dropBlankLines

/-- The kinds of quoted text: with escapes or without, on one line or on several. -/
structure Quoting where
  quote : Char
  escapes : Bool
  long : Bool

/-- The quotes at the start of a text: as many as there are, up to five. -/
def countQuotes (q : Quoting) (s : List Char) : Nat :=
  ((s.take 5).takeWhile (· = q.quote)).length

/--
Reads quoted text up to its closing quotes; up to two more quotes may stand before the closing ones
of a long text. `fuel` is at least the length of the text.
-/
def readQuoted (q : Quoting) : (fuel : Nat) → List Char → Option (List Char × List Char)
  | 0, _ => none
  | _, [] => none
  | fuel + 1, c :: cs =>
    let keep (kept : List Char) (rest : List Char) :=
      (readQuoted q fuel rest).map fun (s, r) => (kept ++ s, r)
    if c = q.quote then
      if q.long then
        let n := countQuotes q (c :: cs)
        if 3 ≤ n then some (List.replicate (n - 3) c, (c :: cs).drop n) else keep [c] cs
      else
        some ([], cs)
    else if c = '\\' ∧ q.escapes then
      match (if q.long then dropFold cs else none) with
      | some rest => keep [] rest
      | none =>
        match readEscape cs with
        | some (e, rest) => keep [e] rest
        | none => none
    else if isPrintable c then
      keep [c] cs
    else if q.long then
      match dropLineEnd (c :: cs) with
      | some rest => keep ['\n'] rest
      | none => none
    else
      none

/-- Reads a string of any kind, and the rest of the text. A long one may start with a line end. -/
def readString? (longAllowed : Bool) (s : List Char) : Option (String × List Char) :=
  let read (q : Quoting) (body : List Char) :=
    (readQuoted q (body.length + 1) body).map fun (t, r) => (String.ofList t, r)
  let long (quote : Char) (escapes : Bool) (body : List Char) :=
    if longAllowed then read ⟨quote, escapes, true⟩ ((dropLineEnd body).getD body) else none
  match s with
  | '"' :: '"' :: '"' :: body => long '"' true body
  | '\'' :: '\'' :: '\'' :: body => long '\'' false body
  | '"' :: body => read ⟨'"', true, false⟩ body
  | '\'' :: body => read ⟨'\'', false, false⟩ body
  | _ => none

/-- The digits of a number whose underscores each stand between two digits. -/
def withoutUnderscores? (isDigit : Char → Bool) : List Char → Option (List Char)
  | [] => none
  | [c] => if isDigit c then some [c] else none
  | c :: '_' :: cs =>
    if isDigit c then (withoutUnderscores? isDigit cs).map (c :: ·) else none
  | c :: cs => if isDigit c then (withoutUnderscores? isDigit cs).map (c :: ·) else none

/-- Decimal digits without a zero in front, unless zero is all there is. -/
def decimalDigits? (s : List Char) : Option (List Char) :=
  (withoutUnderscores? Char.isDigit s).filter fun ds => ds.length ≤ 1 || ds.head? ≠ some '0'

/-- The text without its sign, and whether the sign is a minus. -/
def dropSign (s : List Char) : Bool × List Char :=
  match s with
  | '-' :: r => (true, r)
  | '+' :: r => (false, r)
  | r => (false, r)

/-- Reads a whole number of 128 bits, in base ten with a sign or in another base without one. -/
def integer? (s : List Char) : Option Int :=
  let based (base : Nat) (digits : List Char) : Option Int :=
    let isDigit (c : Char) := match hexValue? c with
      | some v => v < base
      | none => false
    (withoutUnderscores? isDigit digits).bind fun ds =>
      let n := ds.foldl (fun n c => base * n + (hexValue? c).getD 0) 0
      if n < 1 <<< 128 then some n else none
  match s with
  | '0' :: 'x' :: ds => based 16 ds
  | '0' :: 'o' :: ds => based 8 ds
  | '0' :: 'b' :: ds => based 2 ds
  | _ =>
    let (negative, ds) := dropSign s
    (decimalDigits? ds).bind fun ds =>
      let n := ofDigits ds
      if negative then if n ≤ 1 <<< 127 then some (-(n : Int)) else none
      else if n < 1 <<< 128 then some n else none

/-- Whether a text is an exponent: a mark, a sign at will, and digits. -/
def isExponent (s : List Char) : Bool :=
  match s with
  | c :: r => (c = 'e' || c = 'E') && (withoutUnderscores? Char.isDigit (dropSign r).2).isSome
  | [] => false

/-- Whether a text is made like a floating-point number. -/
def looksFloat (s : List Char) : Bool :=
  let body := (dropSign s).2
  let isMark (c : Char) := c = 'e' || c = 'E'
  let whole := body.takeWhile fun c => c ≠ '.' && !isMark c
  let rest := body.dropWhile fun c => c ≠ '.' && !isMark c
  body = "inf".toList || body = "nan".toList ||
    ((decimalDigits? whole).isSome &&
      match rest with
      | '.' :: r =>
        let fraction := r.takeWhile (!isMark ·)
        let tail := r.dropWhile (!isMark ·)
        (withoutUnderscores? Char.isDigit fraction).isSome && (tail.isEmpty || isExponent tail)
      | _ => isExponent rest)

/-- Whether a text is a floating-point number; digits have to stand for a finite one. -/
def isFloat (s : List Char) : Bool :=
  let word := (dropSign s).2
  looksFloat s && (word = "inf".toList || word = "nan".toList ||
    (Binary64.read? (s.filter (· ≠ '_'))).isSome)

/-- A number of two digits up to a limit. -/
def twoDigits (least most : Nat) (s : List Char) : Bool :=
  s.length = 2 && s.all Char.isDigit && least ≤ ofDigits s && ofDigits s ≤ most

def daysIn (year month : Nat) : Nat :=
  if month = 2 then
    if year % 4 = 0 ∧ (year % 100 ≠ 0 ∨ year % 400 = 0) then 29 else 28
  else if [4, 6, 9, 11].contains month then 30
  else 31

/-- Whether a text is a date such as `2024-02-29`. -/
def isDate (s : List Char) : Bool :=
  match s with
  | [a, b, c, d, '-', e, f, '-', g, h] =>
    [a, b, c, d].all Char.isDigit && twoDigits 1 12 [e, f] &&
      twoDigits 1 (daysIn (ofDigits [a, b, c, d]) (ofDigits [e, f])) [g, h]
  | _ => false

/-- Whether a text is a fraction of a second, or nothing. -/
def isFraction (s : List Char) : Bool :=
  match s with
  | [] => true
  | '.' :: ds => !ds.isEmpty && ds.all Char.isDigit
  | _ => false

/-- Whether a text is a time of day; the seconds may be left out. -/
def isTimeOfDay (s : List Char) : Bool :=
  match s with
  | a :: b :: ':' :: c :: d :: rest =>
    twoDigits 0 23 [a, b] && twoDigits 0 59 [c, d] &&
      match rest with
      | ':' :: e :: f :: fraction => twoDigits 0 60 [e, f] && isFraction fraction
      | [] => true
      | _ => false
  | _ => false

/-- Whether a text is a distance to UTC. -/
def isOffset (s : List Char) : Bool :=
  match s with
  | ['Z'] => true
  | ['z'] => true
  | [sign, a, b, ':', c, d] =>
    (sign = '+' || sign = '-') && twoDigits 0 23 [a, b] && twoDigits 0 59 [c, d]
  | _ => false

/-- Whether a text is a date, a time of day, or both, then with an offset at will. -/
def isTime (s : List Char) : Bool :=
  let ofDay := s.drop 11
  let isOffsetMark (c : Char) := ['Z', 'z', '+', '-'].contains c
  isDate s || isTimeOfDay s ||
    (isDate (s.take 10) && (s[10]?.any (['T', 't', ' '].contains ·)) &&
      isTimeOfDay (ofDay.takeWhile (!isOffsetMark ·)) &&
      (let offset := ofDay.dropWhile (!isOffsetMark ·)
       offset.isEmpty || isOffset offset))

def bare? (s : List Char) : Option Toml :=
  if s = "true".toList then some (boolean true)
  else if s = "false".toList then some (boolean false)
  else
    match integer? s with
    | some n => some (integer n)
    | none => if isFloat s then some float else if isTime s then some time else none

/-- Whether a character can stand in a value without quotes and brackets. -/
def isBareValueChar (c : Char) : Bool :=
  c.isAlphanum || ['+', '-', '_', '.', ':'].contains c

/-- Reads a value without quotes and brackets; a space may part a date from a time of day. -/
def readBare (s : List Char) : Option (Toml × List Char) :=
  let token := s.takeWhile isBareValueChar
  let rest := s.dropWhile isBareValueChar
  let spaced := match rest with
    | ' ' :: c :: _ => isDate token && c.isDigit
    | _ => false
  if spaced then
    let more := (rest.drop 1).takeWhile isBareValueChar
    (bare? (token ++ [' '] ++ more)).map fun v => (v, (rest.drop 1).dropWhile isBareValueChar)
  else
    (bare? token).map fun v => (v, rest)

end Toml

end Runbook
