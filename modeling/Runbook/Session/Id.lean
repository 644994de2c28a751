import Runbook.Text.Blank
import Runbook.Text.Digits

/-!
This module contains the identities of debug sessions and their text: thirty-two hexadecimal digits,
which are written in groups with hyphens between them.
-/

namespace Runbook

/-- The identity of a debug session: a number that is written in 128 bits. -/
structure SessionId where
  number : Nat
  deriving DecidableEq, Repr

namespace SessionId

/-- How many digits stand between hyphens. -/
def groups : List Nat :=
  [8, 4, 4, 4, 12]

def hyphenate : List Nat → List Char → List Char
  | [], s => s
  | [_], s => s
  | n :: m :: ns, s => s.take n ++ ['-'] ++ hyphenate (m :: ns) (s.drop n)

/-- Removes the hyphens between groups of characters, which must have the given sizes. -/
def unhyphenate? : List Nat → List Char → Option (List Char)
  | [], s => if s.isEmpty then some [] else none
  | [n], s => if s.length = n then some s else none
  | n :: m :: ns, s =>
    match s.drop n with
    | '-' :: rest => (unhyphenate? (m :: ns) rest).map (s.take n ++ ·)
    | _ => none

def text (id : SessionId) : String :=
  String.ofList (hyphenate groups (Text.hex 32 id.number))

def ofDigits? (s : List Char) : Option SessionId :=
  (s.mapM Text.hexValue?).map fun digits => ⟨digits.foldl (fun n d => 16 * n + d) 0⟩

/-- The name of ids among resource names. -/
def scheme : List Char :=
  "urn:uuid:".toList

/-- Takes away the braces around an id, or the name in front of it. -/
def unwrap (s : List Char) : List Char :=
  match s with
  | '\x7b' :: rest => if rest.getLast? = some '\x7d' then rest.dropLast else s
  | _ => if (s.take scheme.length).map Char.toLower = scheme then s.drop scheme.length else s

/--
Reads an id: digits alone, or digits with hyphens, which may be in braces or behind the name of ids.
Blanks around it do not count.
-/
def read? (text : String) : Option SessionId :=
  let s := Text.trim text.toList
  if s.length = 32 then ofDigits? s else (unhyphenate? groups (unwrap s)).bind ofDigits?

end SessionId

end Runbook
