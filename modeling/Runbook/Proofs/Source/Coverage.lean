import Mathlib.Data.List.TakeWhile
import Runbook.Proofs.Position
import Runbook.Proofs.Source.Numbering
import Runbook.Proofs.Source.Order

/-!
This module contains what becomes of the lines of a text when a tree is built from them: a line
stands in the tree once, or it is left out in a run of lines whose first one is reported.
-/

namespace Runbook.Source

/-- Whether a node is a map that begins on a line, as the map behind a dash does. -/
def Node.beginsOn (number : Nat) : Node → Bool
  | map ((label, _) :: _) => label.line = number
  | _ => false

mutual

/-- The lines of all entries and items in a node, each one before those of its value. -/
def Node.lines : Node → List Nat
  | .map entries => entryLines entries
  | .list items => itemLines items
  | _ => []

def entryLines : List Entry → List Nat
  | [] => []
  | (label, node) :: rest => label.line :: (node.lines ++ entryLines rest)

/-- An item and the entry behind its dash have one line between them. -/
def itemLines : List Item → List Nat
  | [] => []
  | (place, node) :: rest =>
    let behind := if node.beginsOn place.line then node.lines.tail else node.lines
    place.line :: (behind ++ itemLines rest)

end

def Node.linesBehind (number : Nat) (node : Node) : List Nat :=
  if node.beginsOn number then node.lines.tail else node.lines

theorem itemLines_cons (place : Place) (node : Node) (rest : List Item)
    : itemLines ((place, node) :: rest)
        =
      place.line :: (node.linesBehind place.line ++ itemLines rest) := rfl

theorem Node.linesBehind_eq_lines {number : Nat} {node : Node} (h : number ∉ node.places)
    : node.linesBehind number = node.lines := by
  unfold linesBehind beginsOn
  split
  . next label value rest =>
    have hne : label.line ≠ number := by
      intro heq
      apply h
      rw [← heq]
      exact List.mem_cons_self
    simp [hne]
  . rfl

def Line.IsReported (notes : List Diagnostic) (line : Line) : Prop :=
  ∃ d ∈ notes, d.severity = .error ∧ d.line = max 1 line.number

/--
Lines and the numbers of those among them that are kept. What is left out goes on from a reported
line.
-/
inductive Covers (notes : List Diagnostic) : List Line → List Nat → Prop where
  | nil : Covers notes [] []
  | kept (line : Line) {rest : List Line} {kept : List Nat} (h : Covers notes rest kept)
      : Covers notes (line :: rest) (line.number :: kept)
  | skipped {line : Line} {rest later : List Line} {kept : List Nat}
      (reported : line.IsReported notes) (behind : later <:+ rest) (h : Covers notes later kept)
      : Covers notes (line :: rest) kept

namespace Covers

variable {notes : List Diagnostic} {lines : List Line} {kept : List Nat}

theorem mono {more : List Diagnostic} (h : Covers notes lines kept) (hnotes : notes ⊆ more)
    : Covers more lines kept := by
  induction h with
  | nil => exact .nil
  | kept line _ ih => exact .kept line ih
  | skipped hreported hbehind _ ih =>
    obtain ⟨d, hmem, hd⟩ := hreported
    exact .skipped ⟨d, hnotes hmem, hd⟩ hbehind ih

theorem append {below : List Line} {other : List Nat} (h : Covers notes lines kept)
    (hbelow : Covers notes below other)
    : Covers notes (lines ++ below) (kept ++ other) := by
  induction h with
  | nil => exact hbelow
  | kept line _ ih => exact .kept line ih
  | @skipped line rest later _ hreported hbehind _ ih =>
    obtain ⟨run, rfl⟩ := hbehind
    rw [List.cons_append, List.append_assoc]
    exact .skipped hreported (List.suffix_append run _) ih

theorem sublist (h : Covers notes lines kept) : kept.Sublist (numbers lines) := by
  induction h with
  | nil => exact .slnil
  | kept line _ ih => exact ih.cons_cons line.number
  | skipped _ hbehind _ ih => exact (ih.trans (numbers_sublist hbehind)).cons _

theorem eq_numbers (h : Covers notes lines kept) (hnotes : errorsAmong notes = [])
    : kept = numbers lines := by
  induction h with
  | nil => rfl
  | kept line _ ih =>
    rw [ih]
    rfl
  | skipped hreported _ _ _ =>
    obtain ⟨d, hmem, herror, _⟩ := hreported
    rw [errorsAmong_eq_nil_iff] at hnotes
    exact absurd (List.mem_map.mpr ⟨d, hmem, herror⟩) hnotes

end Covers

/-- A run of lines that are not kept, with an error on the first of them. -/
structure LeftOut (notes : List Diagnostic) (lines : List Line) (kept : List Nat)
    (run : List Line) : Prop where
  isInfix : run <:+: lines
  missing : ∀ line ∈ run, line.number ∉ kept
  reported : ∃ first ∈ run.head?, ∃ d ∈ notes, d.severity = .error ∧ d.line = first.number

theorem Covers.leftOut {notes : List Diagnostic} {lines : List Line} {kept : List Nat}
    (h : Covers notes lines kept) (hnodup : (numbers lines).Nodup)
    (hpos : ∀ line ∈ lines, 1 ≤ line.number)
    : ∀ line ∈ lines, line.number ∈ kept ∨ ∃ run, line ∈ run ∧ LeftOut notes lines kept run := by
  induction h with
  | nil => exact List.forall_mem_nil _
  | @kept first rest kept _ ih =>
    obtain ⟨hfirst, hrest⟩ := List.nodup_cons.mp hnodup
    rw [List.forall_mem_cons] at hpos ⊢
    refine ⟨.inl List.mem_cons_self, ?_⟩
    intro line hline
    cases ih hrest hpos.2 line hline with
    | inl hkept => exact .inl (List.mem_cons_of_mem _ hkept)
    | inr hout =>
      obtain ⟨run, hmem, hrun, hmissing, hreported⟩ := hout
      refine .inr ⟨run, hmem, hrun.trans (List.suffix_cons first rest).isInfix, ?_, hreported⟩
      intro other hother hnumber
      cases List.mem_cons.mp hnumber with
      | inl heq =>
        apply hfirst
        rw [← heq]
        exact List.mem_map_of_mem (hrun.subset hother)
      | inr hkept => exact hmissing other hother hkept
  | @skipped first rest later kept hreported hbehind hlater ih =>
    obtain ⟨run, rfl⟩ := hbehind
    have happend : numbers (first :: (run ++ later)) = numbers (first :: run) ++ numbers later := by
      unfold numbers
      rw [← List.cons_append, List.map_append]
    rw [happend] at hnodup
    obtain ⟨_, hnodupLater, hapart⟩ := List.nodup_append.mp hnodup
    rw [← List.cons_append, List.forall_mem_append] at hpos ⊢
    constructor
    . intro line hline
      have hfirst := Nat.max_eq_right (hpos.1 first List.mem_cons_self)
      unfold Line.IsReported at hreported
      rw [hfirst] at hreported
      refine .inr ⟨first :: run, hline, (List.prefix_append (first :: run) later).isInfix, ?_,
        first, rfl, hreported⟩
      intro other hother hkept
      exact hapart _ (List.mem_map_of_mem hother) _ (hlater.sublist.subset hkept) rfl
    . intro line hline
      cases ih hnodupLater hpos.2 line hline with
      | inl hkept => exact .inl hkept
      | inr hout =>
        obtain ⟨other, hmem, hrun, hmissing, hother⟩ := hout
        exact .inr ⟨other, hmem, hrun.trans (List.suffix_append (first :: run) later).isInfix,
          hmissing, hother⟩

theorem block_sublist (lines : List Line) : (block lines).Sublist lines := by
  have hsublist := List.sublist_append_left (block lines) (afterBlock lines)
  rw [block_append_afterBlock] at hsublist
  exact hsublist

theorem block_of_isItem {line : Line} (h : line.token.isItem) (rest : List Line)
    : block (line :: rest) = (line :: rest).takeWhile (inList line.indent) := by
  simp [block, h]

theorem block_block (lines : List Line) : block (block lines) = block lines := by
  cases lines with
  | nil => rfl
  | cons line rest =>
    by_cases hitem : line.token.isItem
    . have hfirst : inList line.indent line := by
        simp [inList, hitem]
      rw [block_of_isItem hitem, List.takeWhile_cons_of_pos hfirst, block_of_isItem hitem,
        List.takeWhile_cons_of_pos hfirst, List.takeWhile_idem]
    . simp [block, hitem, List.takeWhile_idem]

theorem moreEntries_sublist (column : Nat) (lines : List Line)
    : (moreEntries column lines).Sublist lines := by
  unfold moreEntries
  split
  . exact List.takeWhile_sublist _
  . exact List.nil_sublist _

theorem moreEntries_append (column : Nat) (lines : List Line)
    : moreEntries column lines ++
        (if continuesMap column lines then lines.dropWhile (column ≤ ·.indent) else lines)
        =
      lines := by
  unfold moreEntries
  split
  . exact List.takeWhile_append_dropWhile
  . rfl

theorem covers_of_pastDeeper {indent : Nat} {owner : Line} {lines : List Line}
    {notes : List Diagnostic} {kept : List Nat}
    (hnotes : belowNotes owner indent lines ⊆ notes)
    (h : Covers notes (pastDeeper indent lines) kept)
    : Covers notes lines kept := by
  cases lines with
  | nil => exact h
  | cons line rest =>
    by_cases hdeeper : indent < line.indent
    . have hreported : line.belowValue owner ∈ notes := by
        apply hnotes
        simp [belowNotes, hdeeper]
      have hpast : pastDeeper indent (line :: rest) = pastDeeper indent rest :=
        List.dropWhile_cons_of_pos (by simpa using hdeeper)
      rw [hpast] at h
      exact .skipped ⟨_, hreported, by simp [Line.belowValue], by simp [Line.belowValue]⟩
        (pastDeeper_suffix indent rest) h
    . have hpast : pastDeeper indent (line :: rest) = line :: rest :=
        List.dropWhile_cons_of_neg (by simpa using hdeeper)
      rw [hpast] at h
      exact h

theorem Node.linesBehind_map {number : Nat} {label : Label} (h : label.line = number) (node : Node)
    (rest : List Entry)
    : (Node.map ((label, node) :: rest)).linesBehind number = node.lines ++ entryLines rest := by
  simp [linesBehind, beginsOn, h, Node.lines, entryLines]

mutual

theorem buildBlock_covers (lines : List Line) (hnodup : (numbers lines).Nodup)
    (hblock : block lines = lines)
    : Covers (buildBlock lines).notes lines (buildBlock lines).value.lines := by
  unfold buildBlock
  split
  . exact .nil
  . next line rest =>
    split
    . next hitem =>
      rw [block_of_isItem hitem, List.takeWhile_eq_self_iff] at hblock
      exact buildItems_covers line.indent (line :: rest) hnodup hblock
    . exact buildEntries_covers line.indent (line :: rest) hnodup
termination_by 4 * lines.length + 1

theorem buildValue_covers (indent : Nat) (owner : Line) (value : Option Scalar)
    (lines : List Line) (hnodup : (numbers lines).Nodup) {notes : List Diagnostic}
    {kept : List Nat} (hnotes : (buildValue indent owner value lines).notes ⊆ notes)
    (h : Covers notes (afterValue indent value lines) kept)
    : Covers notes lines ((buildValue indent owner value lines).value.lines ++ kept) := by
  revert hnotes h
  unfold buildValue afterValue
  split
  . intro hnotes h
    exact covers_of_pastDeeper hnotes h
  . split
    . intro hnotes h
      have hsublist := hnodup.sublist ((block_sublist lines).map Line.number)
      have hblock := buildBlock_covers (block lines) hsublist (block_block lines)
      have happend := (hblock.mono hnotes).append h
      rw [block_append_afterBlock] at happend
      exact happend
    . intro _ h
      exact h
termination_by 4 * lines.length + 2
decreasing_by
  have := length_block_le lines
  omega

theorem buildEntries_covers (indent : Nat) (lines : List Line) (hnodup : (numbers lines).Nodup)
    : Covers (buildEntries indent lines).notes lines (entryLines (buildEntries indent lines).value)
    := by
  unfold buildEntries
  split
  . exact .nil
  . next line rest =>
    have hrest := (List.nodup_cons.mp hnodup).2
    -- a line that is no entry is reported itself
    have hskip (later : List Line) (hbehind : later <:+ rest) (d : Diagnostic)
        (hd : d.severity = .error ∧ d.line = max 1 line.number)
        : let more := buildEntries indent later
          Covers (d :: more.notes) (line :: rest) (entryLines more.value) := by
      intro more
      have hmore := buildEntries_covers indent later (hrest.sublist (numbers_sublist hbehind))
      exact .skipped ⟨d, List.mem_cons_self, hd⟩ hbehind (hmore.mono (List.subset_cons_self _ _))
    have hentry (value : Option Scalar) (label : Label) (hlabel : label.line = line.number)
        : let node := buildValue indent line value rest
          let more := buildEntries indent (afterValue indent value rest)
          Covers (node.notes ++ more.notes) (line :: rest)
            (entryLines ((label, node.value) :: more.value)) := by
      intro node more
      have hbehind := afterValue_suffix indent value rest
      have hmore := buildEntries_covers indent (afterValue indent value rest)
        (hrest.sublist (numbers_sublist hbehind))
      have hvalue := buildValue_covers indent line value rest hrest
        (List.subset_append_left node.notes more.notes) (hmore.mono (List.subset_append_right _ _))
      rw [entryLines, hlabel]
      exact .kept line hvalue
    split
    . exact hskip _ (pastDeeper_suffix indent rest) _ (by simp [Line.unexpected])
    . split
      . exact hentry _ _ rfl
      . exact hentry _ _ rfl
      . exact hskip _ (pastDeeper_suffix indent rest) _ (by simp [Line.strayItem])
      . exact hskip _ (pastDeeper_suffix indent rest) _ (by simp [Line.strayText])
      . exact hskip _ (List.suffix_refl rest) _ (by simp [Line.strayDirective])
termination_by 4 * lines.length
decreasing_by
  . have := hbehind.length_le
    grind
  . have := hbehind.length_le
    grind
  . grind

theorem buildItem_covers (indent column : Nat) (line : Line) (body : ItemBody) (lines : List Line)
    (hnodup : (numbers (line :: lines)).Nodup) {notes : List Diagnostic} {kept : List Nat}
    (hnotes : (buildItem indent column line body lines).notes ⊆ notes)
    (h : Covers notes (afterItem indent column body lines) kept)
    : Covers notes lines
        ((buildItem indent column line body lines).value.linesBehind line.number ++ kept) := by
  obtain ⟨hline, hlines⟩ := List.nodup_cons.mp hnodup
  revert hnotes h
  unfold buildItem afterItem
  split
  . split
    . intro hnotes h
      have hsublist := (block_sublist lines).map Line.number
      have hblock := buildBlock_covers (block lines) (hlines.sublist hsublist) (block_block lines)
      have happend := (hblock.mono hnotes).append h
      have houtside : line.number ∉ (buildBlock (block lines)).value.places := by
        intro hmem
        exact hline (hsublist.subset ((places_buildBlock (block lines)).subset hmem))
      rw [block_append_afterBlock] at happend
      rw [Node.linesBehind_eq_lines houtside]
      exact happend
    . intro _ h
      exact h
  . intro hnotes h
    exact covers_of_pastDeeper hnotes h
  . next key value =>
    intro hnotes h
    rw [List.append_subset] at hnotes
    have hsublist := (moreEntries_sublist column _).trans
      (afterValue_suffix column value lines).sublist
    have hmore := buildEntries_covers column (moreEntries column (afterValue column value lines))
      (hlines.sublist (hsublist.map Line.number))
    have happend := (hmore.mono hnotes.2).append h
    rw [moreEntries_append] at happend
    have hvalue := buildValue_covers column line value lines hlines hnotes.1 happend
    have hlabel : ({ line.label key with column := column + 1 } : Label).line = line.number := rfl
    dsimp only
    rw [Node.linesBehind_map hlabel, List.append_assoc]
    exact hvalue
termination_by 4 * lines.length + 3
decreasing_by
  . have := length_block_le lines
    omega
  . have := hsublist.length_le
    omega
  . omega

theorem buildItems_covers (indent : Nat) (lines : List Line) (hnodup : (numbers lines).Nodup)
    (hlist : ∀ line ∈ lines, inList indent line)
    : Covers (buildItems indent lines).notes lines (itemLines (buildItems indent lines).value) := by
  unfold buildItems
  split
  . exact .nil
  . next line rest =>
    have hrest := (List.nodup_cons.mp hnodup).2
    obtain ⟨hfirst, hlist⟩ := List.forall_mem_cons.mp hlist
    split
    . have hbehind := pastDeeper_suffix indent rest
      have hmore := buildItems_covers indent (pastDeeper indent rest)
        (hrest.sublist (numbers_sublist hbehind)) (fun l hl => hlist l (hbehind.subset hl))
      exact .skipped ⟨_, List.mem_cons_self, by simp [Line.unexpected], by simp [Line.unexpected]⟩
        hbehind (hmore.mono (List.subset_cons_self _ _))
    . next hindent =>
      split
      . next column body htoken =>
        have hbehind := afterItem_suffix indent column body rest
        have hmore := buildItems_covers indent (afterItem indent column body rest)
          (hrest.sublist (numbers_sublist hbehind)) (fun l hl => hlist l (hbehind.subset hl))
        have hitem := buildItem_covers indent column line body rest hnodup
          (List.subset_append_left _ _) (hmore.mono (List.subset_append_right _ _))
        exact .kept line hitem
      . next hother =>
        -- every line of a list that is not deeper than its dashes is an item
        have hitem : line.token.isItem := by
          unfold inList at hfirst
          simp only [Bool.or_eq_true, Bool.and_eq_true, decide_eq_true_eq] at hfirst
          cases hfirst with
          | inl hdeeper => exact absurd hdeeper hindent
          | inr hdash => exact hdash.2
        obtain ⟨column, body, htoken⟩ := eq_item_of_isItem hitem
        exact absurd htoken (hother column body)
termination_by 4 * lines.length
decreasing_by
  . have := hbehind.length_le
    grind
  . have := hbehind.length_le
    grind
  . grind

end

theorem buildItems_head {indent : Nat} {line : Line} (hindent : ¬ indent < line.indent)
    (hitem : line.token.isItem) (rest : List Line)
    : ∃ node more, (buildItems indent (line :: rest)).value = (line.place, node) :: more := by
  obtain ⟨column, body, htoken⟩ := eq_item_of_isItem hitem
  unfold buildItems
  rw [if_neg hindent, htoken]
  exact ⟨_, _, rfl⟩

theorem buildTree_covers {lines : List Line} (hnodup : (numbers lines).Nodup)
    : Covers (buildTree lines).notes lines (entryLines (buildTree lines).value) := by
  induction lines using lines_induction with
  | nil =>
    unfold buildTree
    exact .nil
  | cons line rest ih =>
    have hlater (later : List Line) (hbehind : later <:+ rest)
        : Covers (buildTree later).notes later (entryLines (buildTree later).value) :=
      ih later hbehind ((List.nodup_cons.mp hnodup).2.sublist (numbers_sublist hbehind))
    unfold buildTree
    split
    . have hbehind := pastDeeper_suffix 0 rest
      exact .skipped ⟨_, List.mem_cons_self, by simp [Line.unexpected], by simp [Line.unexpected]⟩
        hbehind ((hlater _ hbehind).mono (List.subset_cons_self _ _))
    . next hindent =>
      split
      . next hitem =>
        -- a list that has no key is left out as a whole, and its first item is reported
        have hbehind : rest.dropWhile (inList 0) <:+ rest := List.dropWhile_suffix _
        have hfirst : inList line.indent line := by
          simp [inList, hitem]
        obtain ⟨node, more, hhead⟩ := buildItems_head hindent hitem
          (rest.takeWhile (inList line.indent))
        dsimp only
        rw [block_of_isItem hitem, List.takeWhile_cons_of_pos hfirst, hhead]
        refine .skipped ⟨ownerless (line.place, node), ?_, rfl, rfl⟩ hbehind
          ((hlater _ hbehind).mono (List.subset_append_right _ _))
        simp
      . exact buildEntries_covers 0 (line :: rest) hnodup

/--
The lines that a tree is built from, which may be any of the lines of a text, stand in it in their
order and none stands there twice. A line that does not stand in the tree is left out in a run of
lines with an error on the first of them; so without an error every line stands in the tree.
-/
theorem buildTree_keeps_or_reports {source : String} {lines : List Line}
    (h : lines.Sublist (linesOf source).value)
    : let tree := buildTree lines
      let kept := entryLines tree.value
      kept.Sublist (numbers lines) ∧
      kept.Pairwise (· < ·) ∧
      (∀ line ∈ lines, line.number ∈ kept ∨ ∃ run, line ∈ run ∧ LeftOut tree.notes lines kept run) ∧
      (errorsAmong tree.notes = [] → kept = numbers lines) := by
  intro tree kept
  have hpairwise := pairwise_numbers 1 0 (rawLinesOf source.toList)
  have hnumbers : (numbers lines).Pairwise (· < ·) := hpairwise.sublist (h.map Line.number)
  have hnodup : (numbers lines).Nodup := hnumbers.imp Nat.ne_of_lt
  have hcovers := buildTree_covers hnodup
  exact ⟨hcovers.sublist, hnumbers.sublist hcovers.sublist,
    hcovers.leftOut hnodup fun line hline => le_number (h.subset hline), hcovers.eq_numbers⟩

theorem buildTree_keeps_or_reports_of_brokenBlocks
    : let source := String.intercalate "\n"
        ["name: x",
          "    below: 1",
          "      deeper: 2",
          "steps:",
          "  - id: a",
          "    kind: llm",
          "   odd: 1",
          "- stray",
          "  - again",
          "last:",
          "- one",
          ""]
      let lines := (linesOf source).value
      let tree := buildTree lines
      let kept := entryLines tree.value
      lines.Sublist (linesOf source).value ∧
      kept = [1, 4, 5, 6, 10, 11] ∧
      kept.Pairwise (· < ·) ∧
      ∀ line ∈ lines,
        line.number ∈ kept ∨ ∃ run, line ∈ run ∧ LeftOut tree.notes lines kept run := by
  intro source lines tree kept
  have hlines : lines.Sublist (linesOf source).value := .refl _
  obtain ⟨_, hpairwise, hleftOut, _⟩ := buildTree_keeps_or_reports hlines
  exact ⟨hlines, by decide +kernel, hpairwise, hleftOut⟩

end Runbook.Source
