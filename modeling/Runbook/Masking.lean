import Runbook.Credential

/-!
This module contains the masking of known secrets: every occurrence of a secret value in a text is
replaced, one secret after another. Very short values are left alone, since masking them would
destroy unrelated text.
-/

namespace Runbook.Masking

open Text

/-- Secrets of fewer bytes are not masked. -/
def leastBytes : Nat := 4

def maskOne (s secret : List Char) : List Char :=
  if leastBytes ≤ byteSize secret then replaceAll (literal? secret) redacted.toList s else s

/-- Masks secrets in the order of the list. -/
def maskChars (secrets : List String) (s : List Char) : List Char :=
  secrets.foldl (fun s secret => maskOne s secret.toList) s

@[inherit_doc maskChars]
def mask (secrets : List String) (text : String) : String :=
  String.ofList (maskChars secrets text.toList)

mutual

/-- Masks secrets in the strings of a value; keys are left alone. -/
def maskJson (secrets : List String) : Json → Json
  | .str s => .str (mask secrets s)
  | .arr items => .arr (maskItems secrets items)
  | .obj fields => .obj (maskFields secrets fields)
  | .null => .null
  | .bool b => .bool b
  | .int n => .int n
  | .float x => .float x

def maskItems (secrets : List String) : List Json → List Json
  | [] => []
  | v :: vs => maskJson secrets v :: maskItems secrets vs

def maskFields (secrets : List String) : List (String × Json) → List (String × Json)
  | [] => []
  | (k, v) :: fs => (k, maskJson secrets v) :: maskFields secrets fs

end

end Runbook.Masking
