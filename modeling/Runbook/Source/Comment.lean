import Runbook.Text.Blank

/-!
This module contains the removal of comments. A hash sign starts a comment at the beginning of a
text or after a blank, unless it stands between quotes; a quote opens a quoted run only where a
value can start, so that an apostrophe within a word does not.
-/

namespace Runbook.Source

open Text

/-- Where the search for a comment stands: outside quotes, or inside a quoted run. -/
inductive CommentScan where
  /-- Outside quotes, after the given character, if any. -/
  | bare (before : Option Char)
  | quoted (quote : Char) (escaped : Bool)
  deriving DecidableEq

namespace CommentScan

/-- Whether a quote after this character opens a quoted run. -/
def opensQuote : Option Char → Bool
  | none => true
  | some c => isBlank c || ['=', '(', '!', '[', ','].contains c

/-- Whether a hash sign after this character starts a comment. -/
def opensComment : Option Char → Bool
  | none => true
  | some c => isBlank c

/-- The state after a character that does not start a comment. -/
def next : CommentScan → Char → CommentScan
  | bare before, c =>
    if (c = '"' || c = '\'') && opensQuote before then quoted c false else bare (some c)
  | quoted q true, _ => quoted q false
  | quoted q false, c =>
    if c = '\\' then quoted q true else if c = q then bare (some c) else quoted q false

def stopsAt : CommentScan → Char → Bool
  | bare before, c => c = '#' && opensComment before
  | quoted _ _, _ => false

def keep : CommentScan → List Char → List Char
  | _, [] => []
  | scan, c :: cs => if scan.stopsAt c then [] else c :: keep (scan.next c) cs

theorem isPrefix_keep (scan : CommentScan) (s : List Char) : keep scan s <+: s := by
  induction s generalizing scan with
  | nil => simp [keep]
  | cons c cs ih =>
    unfold keep
    split
    . exact List.nil_prefix
    . exact List.prefix_cons_inj c |>.mpr (ih _)

end CommentScan

/-- A text without its comment and without the blanks before it. -/
def stripComment (s : List Char) : List Char :=
  trimEnd (CommentScan.keep (.bare none) s)

/-- What is left of a text is a beginning of it. -/
theorem isPrefix_stripComment (s : List Char) : stripComment s <+: s :=
  (isPrefix_dropTail isBlank _).trans (CommentScan.isPrefix_keep _ s)

end Runbook.Source
