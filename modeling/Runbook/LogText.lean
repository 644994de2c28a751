import Runbook.Credential

/-!
This module contains text that is safe to write to a log: control characters are written as escapes,
so that no text can pass for a line of its own, and credentials of known shapes are removed.
-/

namespace Runbook.LogText

open Text

def isControl (c : Char) : Bool :=
  c.toNat < 32 || (127 ≤ c.toNat && c.toNat < 160)

def escape (c : Char) : List Char :=
  if c = '\n' then ['\\', 'n']
  else if c = '\r' then ['\\', 'r']
  else if c = '\t' then ['\\', 't']
  else if c = '\x1b' then ['\\', 'e']
  else if c = '\x00' then ['\\', '0']
  else if isControl c then ['\\', 'u'] ++ hex 4 c.toNat
  else [c]

def sanitize (text : String) : String :=
  String.ofList (text.toList.flatMap escape)

/-- A text without control characters, and then without credentials. -/
def safe (text : String) : String :=
  Credential.redact (sanitize text)

end Runbook.LogText
