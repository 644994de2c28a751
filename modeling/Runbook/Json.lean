import Runbook.Binary64.Shortest

/-!
This module contains JSON values: the type, objects that keep the order in which their keys were
first written, and the compact text of a value.
-/

namespace Runbook

/-- A JSON value. Numbers are whole numbers of 64 bits or finite doubles. -/
inductive Json where
  | null
  | bool (value : Bool)
  | int (value : Int)
  | float (value : Binary64)
  | str (value : String)
  | arr (items : List Json)
  | obj (fields : List (String × Json))

namespace Json

instance : Inhabited Json := ⟨null⟩

/-- The members of an object in the order of their first appearance. -/
abbrev Fields := List (String × Json)

namespace Fields

/-- The value of a key. -/
def get? : Fields → String → Option Json
  | [], _ => none
  | (k, v) :: fs, key => if k = key then some v else get? fs key

/-- Binds a key. A key that is present keeps its place and takes the new value. -/
def insert (key : String) (value : Json) : Fields → Fields
  | [] => [(key, value)]
  | (k, v) :: fs => if k = key then (k, value) :: fs else (k, v) :: insert key value fs

/-- Binds a key unless it is present. -/
def insertNew (key : String) (value : Json) (fs : Fields) : Fields :=
  if (get? fs key).isSome then fs else fs ++ [(key, value)]

/-- Binds keys one after another, so the last value of a repeated key stays. -/
def ofList (pairs : List (String × Json)) : Fields :=
  pairs.foldl (fun fs (k, v) => insert k v fs) []

def keys (fs : Fields) : List String :=
  fs.map Prod.fst

theorem get?_insert (key other : String) (value : Json) (fs : Fields)
    : get? (insert key value fs) other = if key = other then some value else get? fs other := by
  induction fs with
  | nil => simp [insert, get?]
  | cons f fs ih =>
    obtain ⟨k, v⟩ := f
    by_cases hk : k = key
    . subst hk
      by_cases ho : k = other <;> simp [insert, get?, ho]
    . by_cases ho : k = other
      . subst ho
        simp [insert, get?, hk, Ne.symm hk]
      . simp [insert, get?, hk, ho, ih]

/-- A new key goes to the end, and a present one changes no key. -/
theorem keys_insert (key : String) (value : Json) (fs : Fields)
    : keys (insert key value fs) = if key ∈ keys fs then keys fs else keys fs ++ [key] := by
  induction fs with
  | nil => simp [insert, keys]
  | cons f fs ih =>
    obtain ⟨k, v⟩ := f
    by_cases hk : k = key
    . simp [insert, keys, hk]
    . have hk' : ¬ key = k := fun h => hk h.symm
      simp only [keys] at ih
      by_cases hm : key ∈ fs.map Prod.fst <;> simp [insert, keys, hk, hk', ih, hm]

end Fields

def kind : Json → String
  | null => "null"
  | bool _ => "boolean"
  | int _ => "number"
  | float _ => "number"
  | str _ => "string"
  | arr _ => "array"
  | obj _ => "object"

/-- The whole number that a value holds, if it is not negative and fits in 64 bits. -/
def asNat? : Json → Option Nat
  | int n => if 0 ≤ n ∧ n < UInt64.size then some n.toNat else none
  | _ => none

def asString? : Json → Option String
  | str s => some s
  | _ => none

def escape (c : Char) : List Char :=
  if c = '"' then ['\\', '"']
  else if c = '\\' then ['\\', '\\']
  else if c = '\x08' then ['\\', 'b']
  else if c = '\x0c' then ['\\', 'f']
  else if c = '\n' then ['\\', 'n']
  else if c = '\r' then ['\\', 'r']
  else if c = '\t' then ['\\', 't']
  else if c.toNat < 32 then ['\\', 'u'] ++ Text.hex 4 c.toNat
  else [c]

def quote (s : String) : List Char :=
  ['"'] ++ s.toList.flatMap escape ++ ['"']

def intText (n : Int) : List Char :=
  (if n < 0 then ['-'] else []) ++ Nat.toDigits 10 n.natAbs

mutual

/-- The compact text of a value, as a list of characters. -/
def chars : Json → List Char
  | null => "null".toList
  | bool true => "true".toList
  | bool false => "false".toList
  | int n => intText n
  | float x => x.text
  | str s => quote s
  | arr items => ['['] ++ itemChars items ++ [']']
  | obj fields => ['\x7b'] ++ fieldChars fields ++ ['\x7d']

def itemChars : List Json → List Char
  | [] => []
  | [v] => chars v
  | v :: vs => chars v ++ [','] ++ itemChars vs

def fieldChars : List (String × Json) → List Char
  | [] => []
  | [(k, v)] => quote k ++ [':'] ++ chars v
  | (k, v) :: fs => quote k ++ [':'] ++ chars v ++ [','] ++ fieldChars fs

end

/-- The compact text of a value: no spaces, keys in their order. -/
def text (v : Json) : String :=
  String.ofList v.chars

end Json

end Runbook
