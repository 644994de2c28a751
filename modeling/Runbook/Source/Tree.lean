import Runbook.Source.Line

/-!
This module contains the nesting of a source text: maps, lists and scalars, built from the
indentation of its lines. A key or a dash at one indentation owns the deeper lines after it. Lines
that fit nowhere are reported and left out together with the lines below them.
-/

namespace Runbook.Source

/-- The kind and the provider that a step header gives. -/
structure StepHead where
  kind : Option String
  provider : Option String
  deriving DecidableEq

/-- The key of an entry, with its position and with its step header if it comes from one. -/
structure Label where
  key : String
  line : Nat
  column : Nat
  head : Option StepHead := none
  deriving DecidableEq

/-- The position of a list item. -/
structure Place where
  line : Nat
  column : Nat
  deriving DecidableEq

/-- A part of a source text. -/
inductive Node where
  /-- A key or a dash with nothing after it and nothing below it. -/
  | empty
  | scalar (value : Scalar)
  | map (entries : List (Label × Node))
  | list (items : List (Place × Node))

namespace Node

instance : Inhabited Node := ⟨empty⟩

def scalar? : Node → Option Scalar
  | scalar value => some value
  | _ => none

mutual

/-- The JSON value of a node. Of a repeated key the last value counts. -/
def toJson : Node → Json
  | empty => .null
  | scalar value => value.toJson
  | map entries => .obj (entriesToJson [] entries)
  | list items => .arr (itemsToJson items)

def entriesToJson (fields : Json.Fields) : List (Label × Node) → Json.Fields
  | [] => fields
  | (label, node) :: rest => entriesToJson (fields.insert label.key node.toJson) rest

def itemsToJson : List (Place × Node) → List Json
  | [] => []
  | (_, node) :: rest => node.toJson :: itemsToJson rest

end

end Node

abbrev Entry := Label × Node

abbrev Item := Place × Node

/-- Whether a line belongs to the list whose dashes stand at an indentation. -/
def inList (indent : Nat) (line : Line) : Bool :=
  indent < line.indent || (line.indent = indent && line.token.isItem)

/-- The lines of the block that starts with the first line: a list or a map. -/
def block (lines : List Line) : List Line :=
  match lines with
  | [] => []
  | line :: _ =>
    if line.token.isItem then
      lines.takeWhile (inList line.indent)
    else
      lines.takeWhile (line.indent ≤ ·.indent)

/-- The lines after the block that starts with the first line. -/
def afterBlock (lines : List Line) : List Line :=
  match lines with
  | [] => []
  | line :: _ =>
    if line.token.isItem then
      lines.dropWhile (inList line.indent)
    else
      lines.dropWhile (line.indent ≤ ·.indent)

/-- A block and the lines after it make up the lines. -/
theorem block_append_afterBlock (lines : List Line) : block lines ++ afterBlock lines = lines := by
  cases lines with
  | nil => rfl
  | cons line rest =>
    by_cases h : line.token.isItem <;> simp [block, afterBlock, h]

theorem length_block_le (lines : List Line) : (block lines).length ≤ lines.length := by
  have := congrArg List.length (block_append_afterBlock lines)
  simp only [List.length_append] at this
  omega

theorem length_afterBlock_le (lines : List Line) : (afterBlock lines).length ≤ lines.length := by
  have := congrArg List.length (block_append_afterBlock lines)
  simp only [List.length_append] at this
  omega

/-- The lines from the first one on that is not deeper than an indentation. -/
def pastDeeper (indent : Nat) (lines : List Line) : List Line :=
  lines.dropWhile (indent < ·.indent)

theorem length_pastDeeper_le (indent : Nat) (lines : List Line)
    : (pastDeeper indent lines).length ≤ lines.length :=
  (List.dropWhile_suffix _).length_le

/-- Whether the first line is deeper than an indentation. -/
def startsDeeper (indent : Nat) (lines : List Line) : Bool :=
  match lines with
  | [] => false
  | line :: _ => indent < line.indent

/--
Whether the first line starts the block of a key without a value: a deeper line, or a dash right
below the key.
-/
def startsBlock (indent : Nat) (lines : List Line) : Bool :=
  match lines with
  | [] => false
  | line :: _ => inList indent line

/-- The lines after the value of a key at an indentation. -/
def afterValue (indent : Nat) (value : Option Scalar) (lines : List Line) : List Line :=
  match value with
  | some _ => pastDeeper indent lines
  | none => if startsBlock indent lines then afterBlock lines else lines

theorem length_afterValue_le (indent : Nat) (value : Option Scalar) (lines : List Line)
    : (afterValue indent value lines).length ≤ lines.length := by
  unfold afterValue
  split
  . exact length_pastDeeper_le ..
  . split
    . exact length_afterBlock_le _
    . exact Nat.le_refl _

/-- Whether the first line goes on with the map whose keys stand at a column. -/
def continuesMap (column : Nat) (lines : List Line) : Bool :=
  match lines with
  | [] => false
  | line :: _ => line.indent = column && !line.token.isItem

/-- The further entries of a map that started behind a dash. -/
def moreEntries (column : Nat) (lines : List Line) : List Line :=
  if continuesMap column lines then lines.takeWhile (column ≤ ·.indent) else []

/-- The lines after a list item whose dash stands at an indentation. -/
def afterItem (indent column : Nat) (body : ItemBody) (lines : List Line) : List Line :=
  match body with
  | .empty => if startsDeeper indent lines then afterBlock lines else lines
  | .scalar _ => pastDeeper indent lines
  | .entry _ value =>
    let next := afterValue column value lines
    if continuesMap column next then next.dropWhile (column ≤ ·.indent) else next

theorem length_moreEntries_le (column : Nat) (lines : List Line)
    : (moreEntries column lines).length ≤ lines.length := by
  unfold moreEntries
  split
  . exact (List.takeWhile_sublist _).length_le
  . exact Nat.zero_le _

theorem length_afterItem_le (indent column : Nat) (body : ItemBody) (lines : List Line)
    : (afterItem indent column body lines).length ≤ lines.length := by
  unfold afterItem
  split
  . split
    . exact length_afterBlock_le _
    . exact Nat.le_refl _
  . exact length_pastDeeper_le ..
  . have := length_afterValue_le column
    dsimp only
    split
    . exact Nat.le_trans (List.dropWhile_suffix _).length_le (this ..)
    . exact this ..

namespace Line

def unexpected (line : Line) (indent : Nat) : Diagnostic :=
  (Diagnostic.error line.number line.column "Unexpected indentation").withContext line.text
    |>.withSuggestion
      s!"Align this line to column {indent + 1} or nest it under a key ending in ':'"

def belowValue (line owner : Line) : Diagnostic :=
  (Diagnostic.error line.number line.column "Unexpected indentation").withContext line.text
    |>.withSuggestion (s!"Line {owner.number} already has a value; " ++
      "remove the value after ':' to nest a block, or dedent this line")

def strayItem (line : Line) : Diagnostic :=
  (Diagnostic.error line.number line.column
      "List item where a \x60key: value\x60 entry was expected").withContext line.text
    |>.withSuggestion "Start the list right after a line ending in ':'"

def strayText (line : Line) (text : String) : Diagnostic :=
  (Diagnostic.error line.number line.column
      s!"Expected \x60key: value\x60, found '{text}'").withContext line.text
    |>.withSuggestion "Separate the key and value with ': '"

def strayDirective (line : Line) (name : String) : Diagnostic :=
  (Diagnostic.error line.number line.column
      s!"Directive '@{name}' is only allowed at the top level").withContext line.text

def label (line : Line) (key : String) : Label :=
  { key, line := line.number, column := line.column }

def place (line : Line) : Place :=
  ⟨line.number, line.column⟩

end Line

/-- The report on the lines below a value, if there are any. -/
def belowNotes (owner : Line) (indent : Nat) (lines : List Line) : List Diagnostic :=
  match lines with
  | [] => []
  | line :: _ => if indent < line.indent then [line.belowValue owner] else []

mutual

def buildBlock (lines : List Line) : Noted Node :=
  match lines with
  | [] => ⟨.empty, []⟩
  | line :: rest =>
    if line.token.isItem then
      let items := buildItems line.indent (line :: rest)
      ⟨.list items.value, items.notes⟩
    else
      let entries := buildEntries line.indent (line :: rest)
      ⟨.map entries.value, entries.notes⟩
termination_by 4 * lines.length + 1

/-- The value of a key at an indentation; `lines` are the lines after the key's line. -/
def buildValue (indent : Nat) (owner : Line) (value : Option Scalar) (lines : List Line)
    : Noted Node :=
  match value with
  | some scalar => ⟨.scalar scalar, belowNotes owner indent lines⟩
  | none => if startsBlock indent lines then buildBlock (block lines) else ⟨.empty, []⟩
termination_by 4 * lines.length + 2
decreasing_by
  have := length_block_le lines
  omega

/-- The entries of the map whose keys stand at an indentation; no line is less deep. -/
def buildEntries (indent : Nat) (lines : List Line) : Noted (List Entry) :=
  match lines with
  | [] => ⟨[], []⟩
  | line :: rest =>
    if indent < line.indent then
      let more := buildEntries indent (pastDeeper indent rest)
      ⟨more.value, line.unexpected indent :: more.notes⟩
    else
      match line.token with
      | .entry key value =>
        let node := buildValue indent line value rest
        let more := buildEntries indent (afterValue indent value rest)
        ⟨(line.label key, node.value) :: more.value, node.notes ++ more.notes⟩
      | .step id kind provider =>
        let node := buildValue indent line none rest
        let more := buildEntries indent (afterValue indent none rest)
        ⟨({ line.label id with head := some ⟨kind, provider⟩ }, node.value) :: more.value,
          node.notes ++ more.notes⟩
      | .item _ _ =>
        let more := buildEntries indent (pastDeeper indent rest)
        ⟨more.value, line.strayItem :: more.notes⟩
      | .text text =>
        let more := buildEntries indent (pastDeeper indent rest)
        ⟨more.value, line.strayText text :: more.notes⟩
      | .directive name _ =>
        let more := buildEntries indent rest
        ⟨more.value, line.strayDirective name :: more.notes⟩
termination_by 4 * lines.length
decreasing_by
  all_goals
    have := length_pastDeeper_le indent rest
    have := fun value => length_afterValue_le indent value rest
    grind

/-- The node of a list item; `lines` are the lines after the dash. -/
def buildItem (indent column : Nat) (line : Line) (body : ItemBody) (lines : List Line)
    : Noted Node :=
  match body with
  | .empty =>
    if startsDeeper indent lines then buildBlock (block lines) else ⟨.empty, []⟩
  | .scalar value => ⟨.scalar value, belowNotes line indent lines⟩
  | .entry key value =>
    let node := buildValue column line value lines
    let more := buildEntries column (moreEntries column (afterValue column value lines))
    ⟨.map (({ line.label key with column := column + 1 }, node.value) :: more.value),
      node.notes ++ more.notes⟩
termination_by 4 * lines.length + 3
decreasing_by
  all_goals
    have := length_block_le lines
    have := fun value => length_afterValue_le column value lines
    have := length_moreEntries_le column
    grind

/-- The items of the list whose dashes stand at an indentation; no other line is that shallow. -/
def buildItems (indent : Nat) (lines : List Line) : Noted (List Item) :=
  match lines with
  | [] => ⟨[], []⟩
  | line :: rest =>
    if indent < line.indent then
      let more := buildItems indent (pastDeeper indent rest)
      ⟨more.value, line.unexpected indent :: more.notes⟩
    else
      match line.token with
      | .item column body =>
        let node := buildItem indent column line body rest
        let more := buildItems indent (afterItem indent column body rest)
        ⟨(line.place, node.value) :: more.value, node.notes ++ more.notes⟩
      | _ => ⟨[], []⟩
termination_by 4 * lines.length
decreasing_by
  all_goals
    have := length_pastDeeper_le indent rest
    have := fun column body => length_afterItem_le indent column body rest
    grind

end

def ownerless (item : Item) : Diagnostic :=
  (Diagnostic.error item.1.line item.1.column "List item outside of any section").withSuggestion
    "Put the item under a section such as \x60steps:\x60"

/-- The entries of a whole text. Its keys stand at the very beginning of their lines. -/
def buildTree (lines : List Line) : Noted (List Entry) :=
  match lines with
  | [] => ⟨[], []⟩
  | line :: rest =>
    if 0 < line.indent then
      let more := buildTree (pastDeeper 0 rest)
      ⟨more.value, line.unexpected 0 :: more.notes⟩
    else if line.token.isItem then
      let items := buildItems 0 (block (line :: rest))
      let more := buildTree (rest.dropWhile (inList 0))
      ⟨more.value, items.notes ++ items.value.map ownerless ++ more.notes⟩
    else
      buildEntries 0 (line :: rest)
termination_by lines.length
decreasing_by
  . have := length_pastDeeper_le 0 rest
    simp
    omega
  . have := (List.dropWhile_suffix (inList 0) (l := rest)).length_le
    simp
    omega

end Runbook.Source
