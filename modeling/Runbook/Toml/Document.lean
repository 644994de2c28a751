import Runbook.Toml.Scalar

/-!
This module contains TOML documents: keys with their values, arrays, inline tables, and the headers
that open tables and arrays of tables. Nothing can be defined twice.
-/

namespace Runbook.Toml

open Text

/-- How a table came to be. -/
inductive Origin where
  /-- By a header of its own. -/
  | header
  /-- By a header for a table within it. -/
  | implied
  /-- By a dotted key. -/
  | dotted
  deriving DecidableEq

/-- A part of a document that later lines may still add to. -/
inductive Part where
  | value (value : Toml)
  | table (origin : Origin) (entries : List (String × Part))
  /-- An array of tables, the newest first. -/
  | rows (rows : List (List (String × Part)))

abbrev Parts := List (String × Part)

def Parts.put (key : String) (part : Part) (parts : Parts) : Parts :=
  if parts.any (·.1 = key) then
    parts.map fun (k, p) => if k = key then (k, part) else (k, p)
  else
    parts ++ [(key, part)]

/--
Goes down a path of header keys and changes the parts at its end. Missing tables come into being;
of an array of tables the newest one is meant.
-/
def descend (change : Parts → Option Parts) : List String → Parts → Option Parts
  | [], parts => change parts
  | key :: path, parts =>
    match parts.lookup key with
    | none => (descend change path []).map fun inner => Parts.put key (.table .implied inner) parts
    | some (.table origin inner) =>
      (descend change path inner).map fun inner => Parts.put key (.table origin inner) parts
    | some (.rows (row :: older)) =>
      (descend change path row).map fun row => Parts.put key (.rows (row :: older)) parts
    | some _ => none

/-- Opens the table of a header; only a table that was merely implied may be there already. -/
def openTable (key : String) (parts : Parts) : Option Parts :=
  match parts.lookup key with
  | none => some (Parts.put key (.table .header []) parts)
  | some (.table .implied inner) => some (Parts.put key (.table .header inner) parts)
  | some _ => none

def openRow (key : String) (parts : Parts) : Option Parts :=
  match parts.lookup key with
  | none => some (Parts.put key (.rows [[]]) parts)
  | some (.rows rows) => some (Parts.put key (.rows ([] :: rows)) parts)
  | some _ => none

/--
Sets a dotted key that is not set yet. Dots cannot enter a table with a header of its own. A table
that was merely implied counts as made by dots once a key is set in it. The dots may pass through
the newest one of an array of tables, but a key cannot be set in it.
-/
def assign (value : Toml) : List String → Parts → Option Parts
  | [], _ => none
  | [key], parts =>
    match parts.lookup key with
    | none => some (Parts.put key (.value value) parts)
    | some _ => none
  | key :: path, parts =>
    match parts.lookup key with
    | none => (assign value path []).map fun inner => Parts.put key (.table .dotted inner) parts
    | some (.table origin inner) =>
      if origin = .header then
        none
      else
        let origin := if path.length = 1 then .dotted else origin
        (assign value path inner).map fun inner => Parts.put key (.table origin inner) parts
    | some (.rows (row :: older)) =>
      if 2 ≤ path.length then
        (assign value path row).map fun row => Parts.put key (.rows (row :: older)) parts
      else
        none
    | some _ => none

mutual

def Part.toToml : Part → Toml
  | .value v => v
  | .table _ entries => .table (entriesToToml entries)
  | .rows rows => .array (rowsToToml rows).reverse

def entriesToToml : List (String × Part) → List (String × Toml)
  | [] => []
  | (k, p) :: rest => (k, p.toToml) :: entriesToToml rest

def rowsToToml : List (List (String × Part)) → List Toml
  | [] => []
  | row :: rest => .table (entriesToToml row) :: rowsToToml rest

end

/-- Whether a character can stand in a key without quotes. -/
def isBareKeyChar (c : Char) : Bool :=
  c.isAlphanum || c = '-' || c = '_'

def readSimpleKey (s : List Char) : Option (String × List Char) :=
  match readString? false s with
  | some found => some found
  | none =>
    let key := s.takeWhile isBareKeyChar
    if key.isEmpty then none else some (String.ofList key, s.dropWhile isBareKeyChar)

/-- How many parts a key may have, and how deep brackets and braces may be nested. -/
def depthLimit : Nat := 80

/-- Reads a key with dots between its parts, of which there are at most `depth`. -/
def readKeyUpTo : (depth : Nat) → List Char → Option (List String × List Char)
  | 0, _ => none
  | depth + 1, s =>
    (readSimpleKey (s.dropWhile isGap)).bind fun (key, rest) =>
      match rest.dropWhile isGap with
      | '.' :: more => (readKeyUpTo depth more).map fun (keys, rest) => (key :: keys, rest)
      | rest => some ([key], rest)

/-- Reads a key with dots between its parts, and the blanks after it. -/
def readKey (s : List Char) : Option (List String × List Char) :=
  readKeyUpTo depthLimit s

def dropComment (s : List Char) : List Char :=
  match s with
  | '#' :: rest => rest.dropWhile isPrintable
  | _ => s

/-- Drops blanks, comments and line ends; `fuel` is at least the length of the text. -/
def dropSpace : (fuel : Nat) → List Char → List Char
  | 0, s => s
  | fuel + 1, s =>
    let s := dropComment (s.dropWhile isGap)
    match dropLineEnd s with
    | some rest => dropSpace fuel rest
    | none => s

mutual

/--
Reads a value in which brackets and braces are nested at most `depth` deep; `fuel` is at least twice
the length of the text.
-/
def readValue : (fuel depth : Nat) → List Char → Option (Toml × List Char)
  | 0, _, _ => none
  | fuel + 1, depth, s =>
    match depth, s with
    | 0, '[' :: _ => none
    | 0, '\x7b' :: _ => none
    | depth + 1, '[' :: rest =>
      (readItems fuel depth rest).map fun (items, rest) => (.array items, rest)
    | depth + 1, '\x7b' :: rest =>
      (readMembers fuel depth [] rest).map fun (parts, rest) =>
        (.table (entriesToToml parts), rest)
    | _, s =>
      match readString? true s with
      | some (text, rest) => some (.string text, rest)
      | none => if s.head?.any (['"', '\''].contains ·) then none else readBare s

def readItems : (fuel depth : Nat) → List Char → Option (List Toml × List Char)
  | 0, _, _ => none
  | fuel + 1, depth, s =>
    match dropSpace s.length s with
    | ']' :: rest => some ([], rest)
    | s =>
      (readValue fuel depth s).bind fun (item, rest) =>
        match dropSpace rest.length rest with
        | ',' :: rest => (readItems fuel depth rest).map fun (items, rest) => (item :: items, rest)
        | ']' :: rest => some ([item], rest)
        | _ => none

/--
Reads the members of an inline table up to its brace. Comments and line ends may stand anywhere but
within a key.
-/
def readMembers : (fuel depth : Nat) → Parts → List Char → Option (Parts × List Char)
  | 0, _, _, _ => none
  | fuel + 1, depth, parts, s =>
    match dropSpace s.length s with
    | '\x7d' :: rest => some (parts, rest)
    | s =>
      (readKey s).bind fun (key, rest) =>
        match dropSpace rest.length rest with
        | '=' :: rest =>
          (readValue fuel depth (dropSpace rest.length rest)).bind fun (value, rest) =>
            (assign value key parts).bind fun parts =>
              match dropSpace rest.length rest with
              | ',' :: rest => readMembers fuel depth parts rest
              | '\x7d' :: rest => some (parts, rest)
              | _ => none
        | _ => none

end

/-- The parts of a document so far, and the header under which new keys go. -/
structure Draft where
  parts : Parts := []
  header : List String := []

/-- Reads what a line says after its blanks: a header, or a key with its value. -/
def readStatement (draft : Draft) (s : List Char) : Option (Draft × List Char) :=
  match s with
  | '[' :: '[' :: rest =>
    (readKey rest).bind fun (path, rest) =>
      match rest, path.getLast? with
      | ']' :: ']' :: rest, some key =>
        (descend (openRow key) path.dropLast draft.parts).map fun parts =>
          ({ parts, header := path }, rest)
      | _, _ => none
  | '[' :: rest =>
    (readKey rest).bind fun (path, rest) =>
      match rest, path.getLast? with
      | ']' :: rest, some key =>
        (descend (openTable key) path.dropLast draft.parts).map fun parts =>
          ({ parts, header := path }, rest)
      | _, _ => none
  | _ =>
    (readKey s).bind fun (key, rest) =>
      match rest with
      | '=' :: rest =>
        let fuel := 2 * rest.length + 2
        (readValue fuel depthLimit (rest.dropWhile isGap)).bind fun (value, rest) =>
          (descend (assign value key) draft.header draft.parts).map fun parts =>
            ({ draft with parts }, rest)
      | _ => none

/-- Reads the lines of a document; `fuel` is at least the length of the text. -/
def readStatements : (fuel : Nat) → Draft → List Char → Option Draft
  | 0, _, _ => none
  | fuel + 1, draft, s =>
    match dropSpace s.length s with
    | [] => some draft
    | s =>
      (readStatement draft s).bind fun (draft, rest) =>
        match dropComment (rest.dropWhile isGap) with
        | [] => some draft
        | rest => (dropLineEnd rest).bind fun rest => readStatements fuel draft rest

def dropMark (s : List Char) : List Char :=
  match s with
  | '\ufeff' :: rest => rest
  | _ => s

/-- The entries of a document; none if it is not well formed. -/
def parse? (text : String) : Option (List (String × Toml)) :=
  let s := dropMark text.toList
  (readStatements (s.length + 1) {} s).map fun draft => entriesToToml draft.parts

end Runbook.Toml
