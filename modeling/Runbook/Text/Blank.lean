/-!
This module contains white space: the characters with the Unicode property `White_Space`, the
removal of blanks at the ends of a text, and the words between blanks.
-/

namespace Runbook.Text

/-- Whether a character has the property `White_Space`. -/
def isBlank (c : Char) : Bool :=
  (9 ≤ c.toNat && c.toNat ≤ 13) || (0x2000 ≤ c.toNat && c.toNat ≤ 0x200a) ||
    [' ', '\u0085', '\u00a0', '\u1680', '\u2028', '\u2029', '\u202f', '\u205f', '\u3000'].contains c

/-- Removes the longest tail whose members all satisfy `p`. -/
def dropTail (p : Char → Bool) : List Char → List Char
  | [] => []
  | c :: cs =>
    match dropTail p cs with
    | [] => if p c then [] else [c]
    | kept => c :: kept

theorem isPrefix_dropTail (p : Char → Bool) (s : List Char) : dropTail p s <+: s := by
  induction s with
  | nil => exact List.nil_prefix
  | cons c cs ih =>
    unfold dropTail
    split
    . split
      . exact List.nil_prefix
      . exact List.prefix_cons_inj c |>.mpr List.nil_prefix
    . exact List.prefix_cons_inj c |>.mpr ih

def trimStart (s : List Char) : List Char :=
  s.dropWhile isBlank

def trimEnd (s : List Char) : List Char :=
  dropTail isBlank s

def trim (s : List Char) : List Char :=
  trimEnd (trimStart s)

/-- Whether a text holds nothing but blanks. -/
def allBlank (s : List Char) : Bool :=
  s.all isBlank

def leadingBlanks (s : List Char) : Nat :=
  (s.takeWhile isBlank).length

/-- The maximal runs without a blank. -/
def words : List Char → List (List Char)
  | [] => []
  | c :: cs =>
    if isBlank c then
      words cs
    else
      match cs, words cs with
      | d :: _, w :: ws => if isBlank d then [c] :: w :: ws else (c :: w) :: ws
      | _, _ => [[c]]

def byteSize (s : List Char) : Nat :=
  s.foldl (fun n c => n + c.utf8Size) 0

end Runbook.Text
