import Runbook.Json
import Runbook.Text.Blank
import Runbook.Text.Cut
import Runbook.Text.Lowercase

/-!
This module contains the shapes of well-known credentials and their removal from text. A shape is a
row of pieces, each of which takes as much text as it can; neighbouring pieces share no character,
so what a piece takes leaves no choice to the next one.
-/

namespace Runbook

/-- What stands in the place of a secret. -/
def redacted : String :=
  "[REDACTED]"

namespace Credential

open Text

/-- A part of the shape of a credential. -/
inductive Piece where
  /-- A fixed word of small ASCII letters, digits and signs. -/
  | word (text : String)
  /-- At least `least` characters of a class, and at most `most` of them. -/
  | span (holds : Char → Bool) (least : Nat) (most : Option Nat)

/-- The shape of a credential: alternatives, each a row of pieces. -/
structure Shape where
  name : String
  /-- Whether letters stand for both of their cases. -/
  anyCase : Bool
  rows : List (List Piece)

/-- The simple case folding of the characters that fold to ASCII. -/
def fold (c : Char) : Char :=
  if c = '\u212a' then 'k' else if c = '\u017f' then 's' else c.toLower

def takeWord (anyCase : Bool) : List Char → List Char → Option Nat
  | [], _ => some 0
  | _ :: _, [] => none
  | w :: ws, c :: cs =>
    if w = (if anyCase then fold c else c) then (takeWord anyCase ws cs).map (· + 1) else none

/-- The number of characters that a piece takes from the start of a text. -/
def Piece.take (anyCase : Bool) (s : List Char) : Piece → Option Nat
  | word text => takeWord anyCase text.toList s
  | span holds least most =>
    let limited := match most with
      | some n => s.take n
      | none => s
    let n := (limited.takeWhile fun c => holds (if anyCase then fold c else c)).length
    if least ≤ n then some n else none

/-- The number of characters that a row of pieces takes from the start of a text. -/
def takeRow (anyCase : Bool) (s : List Char) : List Piece → Option Nat
  | [] => some 0
  | piece :: rest =>
    (piece.take anyCase s).bind fun n => (takeRow anyCase (s.drop n) rest).map (n + ·)

/-- The length of the credential that a text starts with; the first alternative wins. -/
def Shape.find? (shape : Shape) (s : List Char) : Option (Unit × Nat) :=
  (shape.rows.findSome? (takeRow shape.anyCase s)).map fun n => ((), n)

/-- Replaces every credential of a shape by the name of the shape. -/
def Shape.redact (shape : Shape) (s : List Char) : List Char :=
  replaceAll shape.find? (shape.name ++ "=" ++ redacted).toList s

/-- ASCII letters and digits, underscores and dashes. -/
def isTokenChar (c : Char) : Bool :=
  c.isAlphanum || c = '_' || c = '-'

def isQuote (c : Char) : Bool :=
  c = '"' || c = '\''

/-- One separator between a name and its value, with blanks around it, and perhaps a quote. -/
def separator : List Piece :=
  [.span isBlank 0 none, .span (fun c => c = '=' || c = ':') 1 (some 1), .span isBlank 0 none,
    .span isQuote 0 (some 1)]

def apiKey : Shape where
  name := "api_key"
  anyCase := true
  rows := [[.word "api", .span (fun c => c = '_' || c = '-') 0 (some 1), .word "key"] ++
    separator ++ [.span isTokenChar 20 none, .span isQuote 0 (some 1)]]

def bearerToken : Shape where
  name := "bearer_token"
  anyCase := true
  rows := [[.word "bearer", .span isBlank 1 none,
    .span (fun c => isTokenChar c || c = '.') 20 none]]

def openaiKey : Shape where
  name := "openai_key"
  anyCase := false
  rows := [[.word "sk-", .span isTokenChar 32 none]]

def githubToken : Shape where
  name := "github_token"
  anyCase := false
  rows := [[.word "ghp_", .span Char.isAlphanum 36 (some 36)],
    [.word "github_pat_", .span (fun c => c.isAlphanum || c = '_') 22 none]]

def slackToken : Shape where
  name := "slack_token"
  anyCase := false
  rows := [[.word "xox", .span (['b', 'a', 'p', 'r', 's'].contains ·) 1 (some 1), .word "-",
    .span (fun c => c.isAlphanum || c = '-') 1 none]]

def password : Shape where
  name := "password"
  anyCase := true
  rows := ["password", "passwd", "pwd"].map fun word =>
    [.word word] ++ separator ++
      [.span (fun c => !isBlank c && !isQuote c) 8 none, .span isQuote 0 (some 1)]

/-- The shapes in the order in which they are looked for. -/
def catalogue : List Shape :=
  [apiKey, bearerToken, openaiKey, githubToken, slackToken, password]

/-- Removes all credentials of known shapes, one shape after another. -/
def redactChars (s : List Char) : List Char :=
  catalogue.foldl (fun s shape => shape.redact s) s

@[inherit_doc redactChars]
def redact (text : String) : String :=
  String.ofList (redactChars text.toList)

/-- Words that make the name of a field suspicious. -/
def sensitiveWords : List String :=
  ["password", "passwd", "secret", "token", "api_key", "apikey", "credential", "authorization",
    "bearer"]

/-- Whether the name of a field suggests that it holds a credential. -/
def isSensitive (key : String) : Bool :=
  let lower := lowercase key.toList
  sensitiveWords.any fun word => occursIn word.toList lower

mutual

/-- Removes credentials from the strings of a value; suspicious fields lose their strings. -/
def redactJson : Json → Json
  | .str s => .str (redact s)
  | .arr items => .arr (redactItems items)
  | .obj fields => .obj (redactFields fields)
  | .null => .null
  | .bool b => .bool b
  | .int n => .int n
  | .float x => .float x

def redactItems : List Json → List Json
  | [] => []
  | v :: vs => redactJson v :: redactItems vs

def redactFields : List (String × Json) → List (String × Json)
  | [] => []
  | (k, v) :: fs =>
    let value := match v, isSensitive k with
      | .str _, true => .str redacted
      | v, _ => redactJson v
    (k, value) :: redactFields fs

end

end Credential

end Runbook
