import Runbook.Json
import Runbook.Text.Blank
import Runbook.Text.Cut

/-!
This module contains templates: text with placeholders `\x7bname\x7d` or `\x7bname.path\x7d` that
are filled in from bound values in a single pass. A text that is one placeholder and nothing else
keeps the type of the value. Braces that form no placeholder stay as they are.
-/

namespace Runbook

open Text

/-- What becomes of a placeholder whose variable is not bound. -/
inductive MissingPolicy where
  /-- It disappears. -/
  | empty
  /-- It stays as it is written. -/
  | keep
  deriving DecidableEq, Repr, Inhabited

namespace Template

/-- Whether a character can start the first segment of a path. -/
def startsName (c : Char) : Bool :=
  c.isAlpha || c = '_'

/-- Whether a character can stand in a segment of a path. -/
def isNameChar (c : Char) : Bool :=
  c.isAlphanum || c = '_' || c = '-'

abbrev Path := List (List Char)

/-- The segments after the first one, each behind a point, and the rest of the text. -/
def readSegments (s : List Char) : Path × List Char :=
  match s with
  | '.' :: c :: rest =>
    if isNameChar c then
      let (more, last) := readSegments (rest.dropWhile isNameChar)
      ((c :: rest.takeWhile isNameChar) :: more, last)
    else
      ([], s)
  | _ => ([], s)
termination_by s.length
decreasing_by
  have := (List.dropWhile_suffix isNameChar (l := rest)).length_le
  simp
  omega

/-- The path a text starts with, and the rest of the text. -/
def readPath? (s : List Char) : Option (Path × List Char) :=
  match s with
  | c :: rest =>
    if startsName c then
      let (more, last) := readSegments (rest.dropWhile isNameChar)
      some ((c :: rest.takeWhile isNameChar) :: more, last)
    else
      none
  | [] => none

/--
The placeholder that a text starts with, and its length: a path between braces, with blanks around
it at will.
-/
def placeholder? (s : List Char) : Option (Path × Nat) :=
  match s with
  | '\x7b' :: rest =>
    match readPath? (trimStart rest) with
    | some (path, rest) =>
      match trimStart rest with
      | '\x7d' :: last => some (path, s.length - last.length)
      | _ => none
    | none => none
  | _ => none

/-- A template as a row of characters and placeholders. -/
def fragments (s : List Char) : List (Fragment Path) :=
  cut placeholder? s

/-- The element of a list whose index is written in decimal. -/
def element? (items : List Json) (segment : List Char) : Option Json :=
  (natBelow? UInt64.size segment).bind fun i => items[i]?

/-- Follows the segments of a path from a value downwards. -/
def follow (value : Json) : Path → Option Json
  | [] => some value
  | segment :: rest =>
    match value with
    | .obj fields => (Json.Fields.get? fields (String.ofList segment)).bind (follow · rest)
    | .arr items => (element? items segment).bind (follow · rest)
    | _ => none

/-- The value at the end of a path through the bindings. -/
def lookupPath (vars : Json.Fields) : Path → Option Json
  | [] => none
  | root :: rest => (vars.get? (String.ofList root)).bind (follow · rest)

/-- The pieces of a text between points; there is always at least one. -/
def splitPoints : List Char → Path
  | [] => [[]]
  | c :: cs =>
    if c = '.' then
      [] :: splitPoints cs
    else
      match splitPoints cs with
      | piece :: pieces => (c :: piece) :: pieces
      | [] => [[c]]

def lookup (vars : Json.Fields) (path : String) : Option Json :=
  lookupPath vars (splitPoints path.toList)

/-- The text of a bound value: strings as they are, null as nothing, the rest as JSON. -/
def valueText : Json → List Char
  | .str s => s.toList
  | .null => []
  | value => value.chars

def renderFragment (policy : MissingPolicy) (vars : Json.Fields) : Fragment Path → List Char
  | .char c => [c]
  | .found path source =>
    match lookupPath vars path with
    | some value => valueText value
    | none => match policy with
      | .empty => []
      | .keep => source

/-- A template with every placeholder replaced by the text of its value. -/
def renderChars (policy : MissingPolicy) (vars : Json.Fields) (s : List Char) : List Char :=
  (fragments s).flatMap (renderFragment policy vars)

@[inherit_doc renderChars]
def render (policy : MissingPolicy) (vars : Json.Fields) (text : String) : String :=
  String.ofList (renderChars policy vars text.toList)

/-- The path of a text that is one placeholder from end to end. -/
def wholePlaceholder? (s : List Char) : Option Path :=
  match placeholder? s with
  | some (path, n) => if n = s.length then some path else none
  | none => none

/-- A template as a value: a single placeholder keeps the type of what it is bound to. -/
def resolveText (policy : MissingPolicy) (vars : Json.Fields) (text : String) : Json :=
  match wholePlaceholder? text.toList with
  | some path =>
    match lookupPath vars path with
    | some value => value
    | none => match policy with
      | .empty => .str ""
      | .keep => .str text
  | none => .str (render policy vars text)

mutual

/-- Fills in every string within a value; keys are left alone. -/
def resolve (policy : MissingPolicy) (vars : Json.Fields) : Json → Json
  | .str s => resolveText policy vars s
  | .arr items => .arr (resolveItems policy vars items)
  | .obj fields => .obj (resolveFields policy vars fields)
  | .null => .null
  | .bool b => .bool b
  | .int n => .int n
  | .float x => .float x

def resolveItems (policy : MissingPolicy) (vars : Json.Fields) : List Json → List Json
  | [] => []
  | v :: vs => resolve policy vars v :: resolveItems policy vars vs

def resolveFields (policy : MissingPolicy) (vars : Json.Fields)
    : List (String × Json) → List (String × Json)
  | [] => []
  | (k, v) :: fs => (k, resolve policy vars v) :: resolveFields policy vars fs

end

def root? : Fragment Path → Option String
  | .char _ => none
  | .found path _ => path.head?.map String.ofList

def distinct (names : List String) : List String :=
  names.foldl (fun seen name => if name ∈ seen then seen else seen ++ [name]) []

/-- The variables that a template refers to, in the order of their first appearance. -/
def names (text : String) : List String :=
  distinct ((fragments text.toList).filterMap root?)

mutual

/-- The variables referred to anywhere in a value, in the order of their appearance. -/
def mentions : Json → List String
  | .str s => names s
  | .arr items => itemMentions items
  | .obj fields => fieldMentions fields
  | _ => []

/-- The variables referred to in the items of an array. -/
def itemMentions : List Json → List String
  | [] => []
  | v :: vs => mentions v ++ itemMentions vs

/-- The variables referred to in the values of an object. -/
def fieldMentions : List (String × Json) → List String
  | [] => []
  | (_, v) :: fs => mentions v ++ fieldMentions fs

end

/-- The variables referred to anywhere in a value, in the order of their first appearance. -/
def namesIn (value : Json) : List String :=
  distinct (mentions value)

end Template

end Runbook
