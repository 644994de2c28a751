import Runbook.Diagnostic
import Runbook.Source.Comment
import Runbook.Source.Scalar

/-!
This module contains the reading of the value after a key or a dash: quoted text, bracketed lists,
blocks that go on over the following lines, and plain text. Every reader is total: what is left
open is reported, and what was read so far is kept.
-/

namespace Runbook.Source

open Text

/-- What an escaped character stands for; an unknown escape stands for itself. -/
def unescape (c : Char) : List Char :=
  if c = 'n' then ['\n']
  else if c = 't' then ['\t']
  else if c = 'r' then ['\r']
  else if c = '"' ∨ c = '\'' ∨ c = '\\' then [c]
  else ['\\', c]

/--
Reads quoted text from behind its opening quote: the text with its escapes resolved, and what
follows the closing quote. None if the text ends first.
-/
def closeQuote? (quote : Char) : List Char → Option (List Char × List Char)
  | [] => none
  | c :: cs =>
    if c = quote then
      some ([], cs)
    else if c = '\\' then
      match cs with
      | [] => none
      | e :: rest => (closeQuote? quote rest).map fun (s, r) => (unescape e ++ s, r)
    else
      (closeQuote? quote cs).map fun (s, r) => (c :: s, r)

/-- What follows the closing quote is shorter than what follows the opening one. -/
theorem closeQuote?_length {quote : Char} {s t r : List Char}
    (h : closeQuote? quote s = some (t, r)) : r.length < s.length := by
  fun_induction closeQuote? quote s generalizing t r with
  | case1 => simp at h
  | case2 => simp_all
  | case3 => simp at h
  | case4 e rest hne ih =>
    obtain ⟨⟨u, v⟩, hu, hv⟩ := Option.map_eq_some_iff.1 h
    have := ih hu
    simp_all
    omega
  | case5 c cs hne hesc ih =>
    obtain ⟨⟨u, v⟩, hu, hv⟩ := Option.map_eq_some_iff.1 h
    have := ih hu
    simp_all
    omega

/-- A space or a tab: what may stand between the parts of a line. -/
def isGap (c : Char) : Bool :=
  c = ' ' || c = '\t'

/-- How the reading of a bracketed list ended. -/
inductive ListEnd where
  /-- At its bracket, before the given text. -/
  | closed (rest : List Char)
  /-- Within a quoted item. -/
  | openItem
  /-- Between items. -/
  | openList
  deriving DecidableEq

def endsItem (c : Char) : Bool :=
  c = ',' || c = ']'

/--
Reads the items of a list from behind its bracket. Commas only separate, so none is needed after a
quoted item and several in a row add nothing.
-/
def listItems (s : List Char) : List Atom × ListEnd :=
  match s with
  | [] => ([], .openList)
  | c :: cs =>
    if isGap c || c = ',' then
      listItems cs
    else if c = ']' then
      ([], .closed cs)
    else if c = '"' ∨ c = '\'' then
      match h : closeQuote? c cs with
      | none => ([], .openItem)
      | some (text, rest) =>
        have : rest.length < cs.length := closeQuote?_length h
        let (items, last) := listItems rest
        (.quoted (String.ofList text) :: items, last)
    else
      have : (cs.dropWhile (!endsItem ·)).length ≤ cs.length :=
        (List.dropWhile_suffix _).length_le
      let (items, last) := listItems (cs.dropWhile (!endsItem ·))
      (.plain (String.ofList (trim (c :: cs.takeWhile (!endsItem ·)))) :: items, last)
termination_by s.length

/-- A row of raw lines; the lines of a source text have no carriage return at their end. -/
abbrev RawLines := List (List Char)

/-- A line is part of a block if it is blank or indented deeper than the block's owner. -/
def inBlock (owner : Nat) (line : List Char) : Bool :=
  allBlank line || owner < leadingBlanks line

/-- The lines of a block without the blank ones at its end. -/
def blockBody (owner : Nat) (following : RawLines) : RawLines :=
  ((following.takeWhile (inBlock owner)).reverse.dropWhile allBlank).reverse

/-- The indentation that all lines of a block share, blank lines aside. -/
def commonIndent (body : RawLines) : Nat :=
  ((body.filter (!allBlank ·)).map leadingBlanks).min?.getD 0

/-- The text of a block; a block that is not empty can keep the line end after its last line. -/
def blockText (keepEnd : Bool) (owner : Nat) (following : RawLines) : List Char :=
  let body := blockBody owner following
  let text := ['\n'].intercalate (body.map (·.drop (commonIndent body)))
  if keepEnd && !text.isEmpty then text ++ ['\n'] else text

/-- A value that was read, with the number of following lines it took. -/
structure Taken (α : Type) where
  value : α
  lines : Nat := 0

/-- The line a value stands on: its number and its text. -/
structure Site where
  number : Nat
  raw : List Char

namespace Site

def error (site : Site) (column : Nat) (message hint : String) : Diagnostic :=
  (Diagnostic.error site.number (column + 1) message).withContext (String.ofList site.raw)
    |>.withSuggestion hint

def warning (site : Site) (column : Nat) (message hint : String) : Diagnostic :=
  (Diagnostic.warning site.number (column + 1) message).withContext (String.ofList site.raw)
    |>.withSuggestion hint

end Site

/-- Reads quoted text from its opening quote. What follows the closing quote is dropped. -/
def quotedValue (site : Site) (column : Nat) (quote : Char) (text : List Char) : Noted Scalar :=
  match closeQuote? quote text with
  | some (s, rest) =>
    let extra := stripComment (trimStart rest)
    let notes := if extra.isEmpty then [] else
      [site.warning column s!"Ignoring text after closing quote: '{String.ofList extra}'"
        "Quote the whole value, or move the extra text into the string"]
    ⟨.atom (.quoted (String.ofList s)), notes⟩
  | none =>
    ⟨.atom (.quoted (String.ofList text)),
      [site.error column "Unterminated string"
        s!"Close the string with a matching {quote} before the end of the line"]⟩

/-- Reads a list from its opening bracket. What follows the closing bracket is dropped. -/
def listValue (site : Site) (column : Nat) (text : List Char) : Noted Scalar :=
  let (items, last) := listItems text
  let notes := match last with
    | .closed _ => []
    | .openItem => [site.error column "Unterminated string in list" "Close the quoted list element"]
    | .openList => [site.error column "Unterminated list" "Close the list with ']'"]
  ⟨.list items, notes⟩

/--
Reads a value that starts at `column`, counted from zero. `owner` is the indentation that the lines
of a block have to exceed.
-/
def readValue (site : Site) (following : RawLines) (text : List Char) (column owner : Nat)
    : Noted (Taken Scalar) :=
  let bare := stripComment text
  if bare = ['|'] ∨ bare = ['|', '-'] then
    pure ⟨.block (String.ofList (blockText (bare = ['|']) owner following)),
      (following.takeWhile (inBlock owner)).length⟩
  else
    match text with
    | '"' :: rest => do return ⟨← quotedValue site column '"' rest, 0⟩
    | '\'' :: rest => do return ⟨← quotedValue site column '\'' rest, 0⟩
    | '[' :: rest => do return ⟨← listValue site column rest, 0⟩
    | _ => pure ⟨.atom (.plain (String.ofList (trim bare))), 0⟩

end Runbook.Source
