import Runbook.Json

/-!
This module contains scalar values as they are written in a source text, and the JSON values they
stand for. Only unquoted text is given a type; quoted text and blocks are strings.
-/

namespace Runbook.Source

open Text

/-- A value on one line that is not a list. -/
inductive Atom where
  /-- Unquoted text. -/
  | plain (text : String)
  /-- The text between quotes, with its escapes resolved. -/
  | quoted (text : String)
  deriving DecidableEq, Repr

/-- A value as it is written. -/
inductive Scalar where
  | atom (value : Atom)
  /-- The lines of a block, with the common indentation removed. -/
  | block (text : String)
  /-- A list between square brackets. -/
  | list (items : List Atom)
  deriving DecidableEq, Repr

/-- Whether a text is a given word of small ASCII letters, in any mixture of cases. -/
def isWord (word : String) (s : List Char) : Bool :=
  s.map Char.toLower == word.toList

/-- Whether a text is made like a number: from digits, points, signs and exponent marks. -/
def looksNumeric (s : List Char) : Bool :=
  s.all (fun c => c.isDigit || ['.', '-', '+', 'e', 'E'].contains c) && s.any Char.isDigit

/-- The value of unquoted text: null, a truth value, a number where it reads as one, or a string. -/
def plainValue (text : String) : Json :=
  let s := text.toList
  if s = [] ∨ s = ['~'] ∨ isWord "null" s then .null
  else if isWord "true" s then .bool true
  else if isWord "false" s then .bool false
  else
    match int64? s with
    | some n => .int n
    | none =>
      if looksNumeric s then
        match Binary64.read? s with
        | some x => .float x
        | none => .str text
      else
        .str text

namespace Atom

def toJson : Atom → Json
  | plain text => plainValue text
  | quoted text => .str text

def text : Atom → String
  | plain text => text
  | quoted text => text

end Atom

namespace Scalar

def toJson : Scalar → Json
  | atom value => value.toJson
  | block text => .str text
  | list items => .arr (items.map Atom.toJson)

/-- The text of a scalar where only text is wanted; a list gives its JSON text. -/
def text : Scalar → String
  | atom value => value.text
  | block text => text
  | list items => (list items).toJson.text

end Scalar

end Runbook.Source
