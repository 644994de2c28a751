import Runbook.Text.Lowercase

/-!
This module contains the search for the known word that a mistyped word stands for: the number of
edits between two words, and the first of the closest known words.
-/

namespace Runbook.Agent

/--
One row of the table of distances: from the distances between a text and the ends of `ys`, those
between the text with `x` in front and the ends of `ys`, the longest end first.
-/
def distanceRow (x : Char) : List Char → List Nat → List Nat
  | [], row => [row.headD 0 + 1]
  | y :: ys, row =>
    let later := distanceRow x ys row.tail
    let cost := if x = y then 0 else 1
    min (min (row.headD 0 + 1) (later.headD 0 + 1)) (row.tail.headD 0 + cost) :: later

/-- The distances between a text and the ends of `ys`, the longest end first. -/
def distances : List Char → List Char → List Nat
  | [], ys => (List.range (ys.length + 1)).reverse
  | x :: xs, ys => distanceRow x ys (distances xs ys)

/-- The least number of insertions, deletions and replacements that turn one text into another. -/
def editDistance (xs ys : List Char) : Nat :=
  (distances xs ys).headD 0

/-- Whether a known word may be meant: it is at most two edits away, or one begins the other. -/
def mayMean (word known : List Char) : Bool :=
  editDistance word known ≤ 2 || word.isPrefixOf known || known.isPrefixOf word

/-- The first word of least distance. -/
def closest (word : List Char) (known : List String) : Option String :=
  (known.foldl (fun best candidate =>
    let distance := editDistance word candidate.toList
    match best with
    | some (least, _) => if distance < least then some (distance, candidate) else best
    | none => some (distance, candidate)) none).map Prod.snd

/-- The known word that a word may stand for, upper case aside. -/
def suggestion (word : String) (known : List String) : Option String :=
  let word := Text.lowercase word.toList
  closest word (known.filter fun k => mayMean word k.toList)

end Runbook.Agent
