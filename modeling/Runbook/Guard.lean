import Runbook.Template

/-!
This module contains guards: conditions over bound values that decide whether a step runs. Terms
are joined by `&&` and `||` and are taken strictly from left to right; a term compares two operands
with `==` or `!=`, or asks whether one operand is true. Operators between quotes are text.
-/

namespace Runbook.Guard

open Text

/-- Where a search for operators stands: outside quotes, or inside a quoted run. -/
inductive QuoteScan where
  | outside
  | inside (quote : Char) (escaped : Bool)
  deriving DecidableEq

/-- The state after a character that belongs to no operator. -/
def QuoteScan.next : QuoteScan → Char → QuoteScan
  | outside, c => if c = '"' ∨ c = '\'' then inside c false else outside
  | inside q true, _ => inside q false
  | inside q false, c =>
    if c = '\\' then inside q true else if c = q then outside else inside q false

inductive Connective where
  | and
  | or
  deriving DecidableEq, Repr

/--
Cuts a guard at its connectives: the first term, and each further one with the connective before it.
The search for quotes starts anew after every connective.
-/
def splitTerms : QuoteScan → List Char → List Char × List (Connective × List Char)
  | _, [] => ([], [])
  | .outside, '&' :: '&' :: rest =>
    let (term, more) := splitTerms .outside rest
    ([], (.and, term) :: more)
  | .outside, '|' :: '|' :: rest =>
    let (term, more) := splitTerms .outside rest
    ([], (.or, term) :: more)
  | scan, c :: cs =>
    let (term, more) := splitTerms (scan.next c) cs
    (c :: term, more)

inductive Comparison where
  | equal
  | notEqual
  deriving DecidableEq, Repr

/-- Cuts a term at its first comparison; none if it has none. -/
def splitComparison? : QuoteScan → List Char → Option (List Char × Comparison × List Char)
  | _, [] => none
  | .outside, '=' :: '=' :: rest => some ([], .equal, rest)
  | .outside, '!' :: '=' :: rest => some ([], .notEqual, rest)
  | scan, c :: cs =>
    (splitComparison? (scan.next c) cs).map fun (left, op, right) => (c :: left, op, right)

/-- The text between the quotes of a text that begins and ends with the same one. -/
def unquote? (s : List Char) : Option (List Char) :=
  match s with
  | q :: rest =>
    if (q = '"' ∨ q = '\'') ∧ rest.getLast? = some q then some rest.dropLast else none
  | [] => none

/--
The text of an operand: a quoted one is filled in as it is, any other one loses the blanks at both
ends.
-/
def operand (vars : Json.Fields) (s : List Char) : List Char :=
  match unquote? (trim s) with
  | some inner => Template.renderChars .empty vars inner
  | none => trim (Template.renderChars .empty vars (trim s))

def isTruthy (s : List Char) : Bool :=
  let word := trim s
  !(word = [] || word = "null".toList || word = "undefined".toList || word = "false".toList)

/-- Whether two texts are equal: as numbers if both are finite numbers, or else as texts. -/
def sameText (left right : List Char) : Bool :=
  match Binary64.read? left, Binary64.read? right with
  | some x, some y => x.sameValue y
  | _, _ => left = right

/-- The truth of a term. -/
def evalTerm (vars : Json.Fields) (term : List Char) : Bool :=
  match splitComparison? .outside term with
  | some (left, .equal, right) => sameText (operand vars left) (operand vars right)
  | some (left, .notEqual, right) => !sameText (operand vars left) (operand vars right)
  | none => isTruthy (operand vars term)

/-- The truth of a guard up to a term, from its truth before that term. -/
def evalNext (vars : Json.Fields) (sofar : Bool) : Connective × List Char → Bool
  | (.and, term) => sofar && evalTerm vars term
  | (.or, term) => sofar || evalTerm vars term

/-- The truth of a guard. -/
def evalChars (vars : Json.Fields) (guard : List Char) : Bool :=
  let (first, rest) := splitTerms .outside guard
  rest.foldl (evalNext vars) (evalTerm vars first)

@[inherit_doc evalChars]
def eval (vars : Json.Fields) (guard : String) : Bool :=
  evalChars vars guard.toList

end Runbook.Guard
