import Runbook.Proofs.Position
import Runbook.Proofs.Source.Coverage

/-!
This module contains where the problems stand that are met in reading the lines of a text and in
building a tree from them: on lines of the text, as the parts of the tree do.
-/

namespace Runbook.Source

open Text

variable {n : Nat}

theorem readLine_isWithin {number : Nat} (hn : 1 ≤ n) (hnumber : number ≤ n) (raw : List Char)
    (following : RawLines)
    : (readLine number raw following).IsWithin n := by
  obtain ⟨token, lines, remarks, hread⟩ := readLine_eq raw following
  rw [hread]
  intro d hd
  obtain ⟨remark, _, rfl⟩ := List.mem_map.mp hd
  simp only [Diagnostic.isWithin_iff, Site.report_line, Site.report_column]
  omega

theorem readLines_isWithin (hn : 1 ≤ n) {number : Nat} (taken : Nat) {lines : RawLines}
    (h : number + lines.length ≤ n + 1)
    : (readLines.go number taken lines).IsWithin n ∧
      ∀ line ∈ (readLines.go number taken lines).value, line.number ≤ n := by
  have hnumber {above below : RawLines} {raw : List Char} (hlines : lines = above ++ raw :: below)
      : number + above.length ≤ n := by
    rw [hlines, List.length_append, List.length_cons] at h
    omega
  constructor
  . intro d hd
    obtain ⟨above, raw, below, hlines, hread⟩ := exists_readLine_of_note hd
    exact readLine_isWithin hn (hnumber hlines) raw below d hread
  . intro line hline
    obtain ⟨above, raw, below, hlines, hread, _⟩ := exists_readLine_of_line hline
    rw [readLine_number hread]
    exact hnumber hlines

/-- The number of lines of a text. -/
def lineCount (source : String) : Nat :=
  (rawLines source.toList).length

theorem linesOf_isWithin {source : String} (hn : max 1 (lineCount source) ≤ n)
    : (linesOf source).IsWithin n ∧ ∀ line ∈ (linesOf source).value, line.number ≤ n := by
  apply readLines_isWithin
  . omega
  . unfold lineCount at hn
    rw [List.length_map]
    omega

theorem forall_of_suffix {later lines : List Line} (hsuffix : later <:+ lines)
    (h : ∀ line ∈ lines, line.number ≤ n)
    : ∀ line ∈ later, line.number ≤ n :=
  fun line hline => h line (hsuffix.subset hline)

theorem belowNotes_isWithin (hn : 1 ≤ n) (owner : Line) (indent : Nat) {lines : List Line}
    (h : ∀ line ∈ lines, line.number ≤ n)
    : ∀ d ∈ belowNotes owner indent lines, d.IsWithin n := by
  unfold belowNotes
  split
  . exact List.forall_mem_nil _
  . next line rest =>
    split
    . simp [Line.belowValue, hn, h line List.mem_cons_self]
    . exact List.forall_mem_nil _

mutual

theorem buildBlock_isWithin (hn : 1 ≤ n) (lines : List Line) (h : ∀ line ∈ lines, line.number ≤ n)
    : (buildBlock lines).IsWithin n := by
  unfold buildBlock
  split
  . exact Noted.isWithin_nil _
  . next line rest =>
    split
    . exact buildItems_isWithin hn line.indent (line :: rest) h
    . exact buildEntries_isWithin hn line.indent (line :: rest) h
termination_by 4 * lines.length + 1

theorem buildValue_isWithin (hn : 1 ≤ n) (indent : Nat) (owner : Line) (value : Option Scalar)
    (lines : List Line) (h : ∀ line ∈ lines, line.number ≤ n)
    : (buildValue indent owner value lines).IsWithin n := by
  unfold buildValue
  split
  . exact belowNotes_isWithin hn owner indent h
  . split
    . exact buildBlock_isWithin hn (block lines)
        fun line hline => h line ((block_sublist lines).subset hline)
    . exact Noted.isWithin_nil _
termination_by 4 * lines.length + 2
decreasing_by
  have := length_block_le lines
  omega

theorem buildEntries_isWithin (hn : 1 ≤ n) (indent : Nat) (lines : List Line)
    (h : ∀ line ∈ lines, line.number ≤ n)
    : (buildEntries indent lines).IsWithin n := by
  unfold buildEntries
  split
  . exact Noted.isWithin_nil _
  . next line rest =>
    obtain ⟨hline, hrest⟩ := List.forall_mem_cons.mp h
    have hmore (later : List Line) (hbehind : later <:+ rest)
        : (buildEntries indent later).IsWithin n :=
      buildEntries_isWithin hn indent later (forall_of_suffix hbehind hrest)
    have hskip := hmore _ (pastDeeper_suffix indent rest)
    have hvalue (value : Option Scalar) := buildValue_isWithin hn indent line value rest hrest
    have hnext (value : Option Scalar) := hmore _ (afterValue_suffix indent value rest)
    split
    . simp [Line.unexpected, hn, hline, hskip]
    . split
      . simp [hvalue, hnext]
      . simp [hvalue, hnext]
      . simp [Line.strayItem, hn, hline, hskip]
      . simp [Line.strayText, hn, hline, hskip]
      . simp [Line.strayDirective, hn, hline, hmore rest (List.suffix_refl rest)]
termination_by 4 * lines.length
decreasing_by
  . have := hbehind.length_le
    grind
  . grind

theorem buildItem_isWithin (hn : 1 ≤ n) (indent column : Nat) (line : Line) (body : ItemBody)
    (lines : List Line) (h : ∀ line ∈ lines, line.number ≤ n)
    : (buildItem indent column line body lines).IsWithin n := by
  unfold buildItem
  split
  . split
    . exact buildBlock_isWithin hn (block lines)
        fun line hline => h line ((block_sublist lines).subset hline)
    . exact Noted.isWithin_nil _
  . exact belowNotes_isWithin hn line indent h
  . next key value =>
    have hsublist := (moreEntries_sublist column _).trans
      (afterValue_suffix column value lines).sublist
    have hmore := buildEntries_isWithin hn column
      (moreEntries column (afterValue column value lines)) fun line hline =>
        h line (hsublist.subset hline)
    simp [buildValue_isWithin hn column line value lines h, hmore]
termination_by 4 * lines.length + 3
decreasing_by
  . have := length_block_le lines
    omega
  . have := hsublist.length_le
    omega
  . omega

theorem buildItems_isWithin (hn : 1 ≤ n) (indent : Nat) (lines : List Line)
    (h : ∀ line ∈ lines, line.number ≤ n)
    : (buildItems indent lines).IsWithin n := by
  unfold buildItems
  split
  . exact Noted.isWithin_nil _
  . next line rest =>
    obtain ⟨hline, hrest⟩ := List.forall_mem_cons.mp h
    have hmore (later : List Line) (hbehind : later <:+ rest)
        : (buildItems indent later).IsWithin n :=
      buildItems_isWithin hn indent later (forall_of_suffix hbehind hrest)
    split
    . simp [Line.unexpected, hn, hline, hmore _ (pastDeeper_suffix indent rest)]
    . split
      . next column body _ =>
        simp [buildItem_isWithin hn indent column line body rest hrest,
          hmore _ (afterItem_suffix indent column body rest)]
      . exact Noted.isWithin_nil _
termination_by 4 * lines.length
decreasing_by
  . have := hbehind.length_le
    grind
  . grind

end

theorem buildTree_isWithin (hn : 1 ≤ n) {lines : List Line} (h : ∀ line ∈ lines, line.number ≤ n)
    : (buildTree lines).IsWithin n := by
  induction lines using lines_induction with
  | nil =>
    unfold buildTree
    exact Noted.isWithin_nil _
  | cons line rest ih =>
    obtain ⟨hline, hrest⟩ := List.forall_mem_cons.mp h
    have hmore (later : List Line) (hbehind : later <:+ rest) : (buildTree later).IsWithin n :=
      ih later hbehind (forall_of_suffix hbehind hrest)
    unfold buildTree
    split
    . simp [Line.unexpected, hn, hline, hmore _ (pastDeeper_suffix 0 rest)]
    . split
      . have hblock : ∀ l ∈ block (line :: rest), l.number ≤ n :=
          fun l hl => h l ((block_sublist (line :: rest)).subset hl)
        have hitems := buildItems_isWithin hn 0 (block (line :: rest)) hblock
        have hplaces := places_buildItems 0 (block (line :: rest))
        have hownerless : ∀ item ∈ (buildItems 0 (block (line :: rest))).value,
            (ownerless item).IsWithin n := by
          intro item hitem
          obtain ⟨l, hl, hnumber⟩ := List.mem_map.mp (hplaces.subset (List.mem_map_of_mem hitem))
          simp [ownerless, hn, ← hnumber, hblock l hl]
        have hlater := hmore _ (List.dropWhile_suffix (inList 0))
        simp only [Noted.isWithin_append_iff, Noted.isWithin_notes_iff]
        exact ⟨⟨hitems, List.forall_mem_map.mpr hownerless⟩, hlater⟩
      . exact buildEntries_isWithin hn 0 (line :: rest) h

def Node.IsWithin (n : Nat) (node : Node) : Prop :=
  ∀ k ∈ node.lines, k ≤ n

def EntryWithin (n : Nat) (entry : Entry) : Prop :=
  entry.1.line ≤ n ∧ entry.2.IsWithin n

def ItemWithin (n : Nat) (item : Item) : Prop :=
  item.1.line ≤ n ∧ item.2.IsWithin n

theorem forall_entryLines_iff (entries : List Entry)
    : (∀ k ∈ entryLines entries, k ≤ n) ↔ ∀ entry ∈ entries, EntryWithin n entry := by
  induction entries with
  | nil => simp [entryLines]
  | cons entry rest ih =>
    obtain ⟨label, node⟩ := entry
    rw [entryLines, List.forall_mem_cons, List.forall_mem_append, ih, List.forall_mem_cons,
      ← and_assoc]
    rfl

theorem Node.isWithin_map_iff (entries : List Entry)
    : (map entries).IsWithin n ↔ ∀ entry ∈ entries, EntryWithin n entry := by
  rw [← forall_entryLines_iff]
  unfold IsWithin Node.lines
  rfl

theorem Node.mem_linesBehind {number k : Nat} {node : Node} (h : k ∈ node.lines)
    : k = number ∨ k ∈ node.linesBehind number := by
  unfold linesBehind beginsOn
  split
  . next label value rest =>
    split
    . next hbegins =>
      rw [decide_eq_true_eq] at hbegins
      rw [Node.lines, entryLines, hbegins, List.mem_cons] at h
      exact h
    . exact .inr h
  . exact .inr h

theorem Node.IsWithin.of_list {items : List Item} (h : (list items).IsWithin n)
    : ∀ item ∈ items, ItemWithin n item := by
  unfold IsWithin at h
  rw [Node.lines] at h
  induction items with
  | nil => exact List.forall_mem_nil _
  | cons item rest ih =>
    obtain ⟨place, node⟩ := item
    rw [itemLines_cons, List.forall_mem_cons, List.forall_mem_append] at h
    obtain ⟨hplace, hbehind, hrest⟩ := h
    rw [List.forall_mem_cons]
    refine ⟨⟨hplace, ?_⟩, ih hrest⟩
    intro k hk
    have hcases : k = place.line ∨ k ∈ node.linesBehind place.line := Node.mem_linesBehind hk
    cases hcases with
    | inl heq => exact heq ▸ hplace
    | inr hmem => exact hbehind k hmem

theorem Node.IsWithin.places {node : Node} (h : node.IsWithin n) : ∀ k ∈ node.places, k ≤ n := by
  cases node with
  | map entries => exact List.forall_mem_map.mpr fun entry hentry =>
      ((isWithin_map_iff entries).mp h entry hentry).1
  | list items => exact List.forall_mem_map.mpr fun item hitem => (h.of_list item hitem).1
  | empty => exact List.forall_mem_nil _
  | scalar value => exact List.forall_mem_nil _

end Runbook.Source
