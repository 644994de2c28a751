import Runbook.Source.Value
import Runbook.Text.Alphanumeric

/-!
This module contains the lines of a source text, each classified by its form: a directive, an entry
`key: value`, a step header, a list item, or other text. Blank lines and comment lines leave no
trace, and a block belongs to the line that opens it.
-/

namespace Runbook.Source

open Text

/-- What follows the dash of a list item. -/
inductive ItemBody where
  | empty
  | scalar (value : Scalar)
  | entry (key : String) (value : Option Scalar)
  deriving DecidableEq

/-- The form of a line. -/
inductive Token where
  /-- `@name argument …` -/
  | directive (name : String) (args : List String)
  /-- `key: value`, or `key:` alone. -/
  | entry (key : String) (value : Option Scalar)
  /-- `step id: kind provider` -/
  | step (id : String) (kind provider : Option String)
  /-- `- body`, where the body starts at a column counted from zero. -/
  | item (bodyColumn : Nat) (body : ItemBody)
  | text (text : String)
  deriving DecidableEq

namespace Token

def isItem : Token → Bool
  | item _ _ => true
  | _ => false

end Token

/-- A line that is neither blank nor a comment. -/
structure Line where
  /-- Counted from one. -/
  number : Nat
  /-- The number of blanks before the first other character. -/
  indent : Nat
  token : Token
  text : String
  deriving DecidableEq

/-- The column of the first character, counted from one. -/
def Line.column (line : Line) : Nat :=
  line.indent + 1

/-- Letters, digits, underscores, dashes and points make up a key. -/
def isKeyChar (c : Char) : Bool :=
  isAlphanumeric c || c = '_' || c = '-' || c = '.'

/-- Reads a key, which may be quoted, and what follows it. -/
def readKey? (s : List Char) : Option (List Char × List Char) :=
  match s with
  | '"' :: rest => closeQuote? '"' rest
  | '\'' :: rest => closeQuote? '\'' rest
  | _ => some (s.takeWhile isKeyChar, s.dropWhile isKeyChar)

/-- What follows a colon with a gap or the end of the text after it. -/
def afterColon? (s : List Char) : Option (List Char) :=
  match s with
  | [':'] => some []
  | ':' :: c :: rest => if isGap c then some (c :: rest) else none
  | _ => none

/-- A key and the text after its colon; none if the text is no entry. -/
def splitKey? (s : List Char) : Option (List Char × List Char) :=
  match readKey? s with
  | some (key, rest) =>
    if key.isEmpty then none else (afterColon? (rest.dropWhile isGap)).map fun tail => (key, tail)
  | none => none

/--
Reads an entry at the indentation `indent`; none if the text is no entry. The column of the value
counts the blanks before it by their bytes.
-/
def readKeyed? (site : Site) (following : RawLines) (content : List Char) (indent : Nat)
    : Option (Noted (Taken (String × Option Scalar))) :=
  (splitKey? content).map fun (key, tail) =>
    let text := trimStart tail
    if (stripComment text).isEmpty then
      pure ⟨(String.ofList key, none), 0⟩
    else do
      let column :=
        indent + (content.length - tail.length) + byteSize (tail.takeWhile isBlank)
      let value ← readValue site following text column indent
      return ⟨(String.ofList key, some value.value), value.lines⟩

def afterStepWord? (content : List Char) : Option (List Char) :=
  match content with
  | 's' :: 't' :: 'e' :: 'p' :: c :: rest => if isGap c then some rest else none
  | _ => none

/-- Reads a step header; none if the text is no step header. -/
def readStep? (site : Site) (content : List Char) (indent : Nat) : Option (Noted Token) :=
  (afterStepWord? content).bind fun rest =>
    let rest := rest.dropWhile isGap
    let id := rest.takeWhile isKeyChar
    match (rest.dropWhile isKeyChar).dropWhile isGap with
    | ':' :: tail =>
      if id.isEmpty then
        none
      else
        let parts := (words (stripComment tail)).map String.ofList
        let extra := " ".intercalate (parts.drop 2)
        let notes := if (parts.drop 2).isEmpty then [] else
          [site.warning indent s!"Ignoring extra text after step header: '{extra}'"
            ("Use the form \x60step <id>: <kind> [provider]\x60 " ++
              "and put other fields on indented lines")]
        some ⟨.step (String.ofList id) parts[0]? parts[1]?, notes⟩
    | _ => none

/-- The text after the dash of a list item, the dash standing alone or before a gap. -/
def afterDash? (content : List Char) : Option (List Char) :=
  match content with
  | ['-'] => some []
  | '-' :: c :: rest => if isGap c then some (c :: rest) else none
  | _ => none

/-- Reads what follows a dash; `column` is where the body starts, counted from zero. -/
def readItem (site : Site) (following : RawLines) (body : List Char) (column : Nat)
    : Noted (Taken ItemBody) :=
  if (stripComment body).isEmpty then
    pure ⟨.empty, 0⟩
  else
    match readKeyed? site following body column with
    | some entry => do
      let entry ← entry
      return ⟨.entry entry.value.1 entry.value.2, entry.lines⟩
    | none => do
      let value ← readValue site following body column column
      return ⟨.scalar value.value, value.lines⟩

/-- Reads the form of a line from its first character that is not blank. -/
def readToken (site : Site) (following : RawLines) (content : List Char) (indent : Nat)
    : Noted (Taken Token) :=
  match content with
  | '@' :: rest =>
    match (words (stripComment rest)).map String.ofList with
    | [] => pure ⟨.directive "" [], 0⟩
    | name :: args => pure ⟨.directive name args, 0⟩
  | _ =>
    match afterDash? content with
    | some rest => do
      let body := trimStart rest
      let column := indent + (content.length - body.length)
      let item ← readItem site following body column
      return ⟨.item column item.value, item.lines⟩
    | none =>
      match readStep? site content indent with
      | some step => do return ⟨← step, 0⟩
      | none =>
        match readKeyed? site following content indent with
        | some entry => do
          let entry ← entry
          return ⟨.entry entry.value.1 entry.value.2, entry.lines⟩
        | none => pure ⟨.text (String.ofList (stripComment content)), 0⟩

/-- A tab in an indentation; its column counts the blanks before it by their bytes. -/
def tabNotes (site : Site) (leading : List Char) : List Diagnostic :=
  if leading.contains '\t' then
    [site.error (byteSize (leading.takeWhile (· ≠ '\t'))) "Tab character used for indentation"
      "Indent with spaces; tabs make nesting ambiguous"]
  else
    []

def readLine (number : Nat) (raw : List Char) (following : RawLines)
    : Noted (Taken (Option Line)) :=
  let content := trimStart raw
  if content.isEmpty || content.head? = some '#' then
    pure ⟨none, 0⟩
  else do
    let leading := raw.takeWhile isBlank
    let site : Site := ⟨number, raw⟩
    Noted.noteAll (tabNotes site leading)
    let token ← readToken site following content leading.length
    return ⟨some ⟨number, leading.length, token.value, String.ofList raw⟩, token.lines⟩

/-- The lines of a text, without their ends. A last line that is empty is no line. -/
def rawLines : List Char → RawLines
  | [] => []
  | c :: cs =>
    if c = '\n' then
      [] :: rawLines cs
    else
      match rawLines cs with
      | [] => [[c]]
      | line :: lines => (c :: line) :: lines

/-- Reads numbered lines one after another; a line that opens a block takes the block with it. -/
def readLines (number : Nat) (lines : RawLines) : Noted (List Line) :=
  go number 0 lines
where
  /-- The second argument counts the lines that belong to the last block. -/
  go : Nat → Nat → RawLines → Noted (List Line)
    | _, _, [] => pure []
    | number, taken + 1, _ :: lines => go (number + 1) taken lines
    | number, 0, raw :: lines => do
      let line ← readLine number raw lines
      let rest ← go (number + 1) line.lines lines
      return line.value.toList ++ rest

/-- The lines of a source text. Carriage returns at the end of a line do not count. -/
def linesOf (source : String) : Noted (List Line) :=
  readLines 1 ((rawLines source.toList).map (dropTail (· = '\r')))

end Runbook.Source
