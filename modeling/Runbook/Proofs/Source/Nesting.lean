import Runbook.Proofs.Source.Coverage

/-!
This module contains how the parts of a tree stand in their text: the entries of a map, and the items
of a list, one below the other in one column, and the parts of a value further to the right than what
holds the value. Only a list may stand in the column of its key.
-/

namespace Runbook.Source

def Label.place (label : Label) : Place :=
  ⟨label.line, label.column⟩

/-- The key that a line has, with its position. A key behind a dash stands where the body starts. -/
def Line.label? (line : Line) : Option Label :=
  match line.token with
  | .entry key _ => some (line.label key)
  | .step id kind provider => some { line.label id with head := some ⟨kind, provider⟩ }
  | .item column (.entry key _) => some { line.label key with column := column + 1 }
  | _ => none

/-- Positions one below the other: in the same column, and each of them on a later line. -/
def Stacked (places : List Place) : Prop :=
  places.Pairwise fun above below => above.column = below.column ∧ above.line < below.line

namespace Node

/-- The positions of the entries of a map, or of the items of a list. -/
def positions : Node → List Place
  | map entries => entries.map fun entry => entry.1.place
  | list items => items.map fun item => item.1
  | _ => []

/-- All entries or items of a node stand further to the right than a column. -/
def IsRightOf (column : Nat) (node : Node) : Prop :=
  ∀ place ∈ node.positions, column < place.column

def IsBelowKey (column : Nat) (node : Node) : Prop :=
  match node with
  | list items => ∀ item ∈ items, column ≤ item.1.column
  | node => node.IsRightOf column

/-- The entries and items in a node stand in the text as they are nested in the node. -/
inductive Nests (lines : List Line) : Node → Prop where
  | empty : Nests lines .empty
  | scalar (value : Scalar) : Nests lines (.scalar value)
  | map {entries : List Entry}
      (stacked : Stacked (map entries).positions)
      (written : ∀ entry ∈ entries, ∃ line ∈ lines, line.label? = some entry.1)
      (below : ∀ entry ∈ entries, entry.2.IsBelowKey entry.1.column)
      (values : ∀ entry ∈ entries, entry.2.Nests lines)
      : Nests lines (map entries)
  | list {items : List Item}
      (stacked : Stacked (list items).positions)
      (written : ∀ item ∈ items, ∃ line ∈ lines, line.token.isItem ∧ line.place = item.1)
      (right : ∀ item ∈ items, item.2.IsRightOf item.1.column)
      (values : ∀ item ∈ items, item.2.Nests lines)
      : Nests lines (list items)

end Node

def Line.StartsBehindDash (line : Line) : Prop :=
  ∀ column body, line.token = .item column body → line.indent < column

theorem readStep?_isItem {site : Site} {content : List Char} {indent : Nat} {step : Noted Token}
    (h : readStep? site content indent = some step)
    : step.value.isItem = false := by
  unfold readStep? at h
  obtain ⟨rest, _, h⟩ := Option.bind_eq_some_iff.mp h
  dsimp only at h
  split at h
  . split at h
    . cases h
    . cases h
      rfl
  . cases h

theorem readToken_item {site : Site} {following : RawLines} {content : List Char}
    {indent column : Nat} {body : ItemBody}
    (h : (readToken site following content indent).value.value = .item column body)
    : indent < column := by
  unfold readToken at h
  split at h
  . split at h
    . cases h
    . cases h
  . split at h
    . next rest hdash =>
      cases h
      have hlength := congrArg List.length (eq_dash_cons hdash)
      rw [List.length_cons] at hlength
      have htrim := (trimStart_suffix rest).length_le
      omega
    . split at h
      . next step hstep =>
        have hitem := readStep?_isItem hstep
        rw [show step.value = .item column body from h] at hitem
        cases hitem
      . split at h
        . cases h
        . cases h

theorem linesOf_startsBehindDash {source : String}
    : ∀ line ∈ (linesOf source).value, line.StartsBehindDash := by
  intro line hline column body htoken
  obtain ⟨above, raw, below, _, hread, _⟩ := exists_readLine_of_line hline
  unfold readLine at hread
  dsimp only at hread
  split at hread
  . cases hread
  . cases hread
    exact readToken_item htoken

theorem stacked_of_column {places : List Place} (column : Nat)
    (hcolumn : ∀ place ∈ places, place.column = column)
    (hlines : (places.map Place.line).Pairwise (· < ·))
    : Stacked places := by
  rw [List.pairwise_map] at hlines
  apply hlines.imp_of_mem
  intro above below habove hbelow hlt
  exact ⟨(hcolumn above habove).trans (hcolumn below hbelow).symm, hlt⟩

/-- An entry in a column of the text, with a value that stands below its key. -/
structure EntryNests (lines : List Line) (column : Nat) (entry : Entry) : Prop where
  column : entry.1.column = column
  written : ∃ line ∈ lines, line.label? = some entry.1
  below : entry.2.IsBelowKey entry.1.column
  value : entry.2.Nests lines

@[inherit_doc EntryNests]
structure ItemNests (lines : List Line) (column : Nat) (item : Item) : Prop where
  column : item.1.column = column
  written : ∃ line ∈ lines, line.token.isItem ∧ line.place = item.1
  right : item.2.IsRightOf item.1.column
  value : item.2.Nests lines

theorem nests_map {lines : List Line} {column : Nat} {entries : List Entry}
    (h : ∀ entry ∈ entries, EntryNests lines column entry)
    (hlines : (entryPlaces entries).Pairwise (· < ·))
    : (Node.map entries).Nests lines := by
  apply Node.Nests.map
  . apply stacked_of_column column
    . exact List.forall_mem_map.mpr fun entry hentry => (h entry hentry).column
    . rw [Node.positions, List.map_map]
      exact hlines
  . exact fun entry hentry => (h entry hentry).written
  . exact fun entry hentry => (h entry hentry).below
  . exact fun entry hentry => (h entry hentry).value

theorem isRightOf_map {lines : List Line} {indent column : Nat} {entries : List Entry}
    (h : ∀ entry ∈ entries, EntryNests lines column entry) (hright : indent < column)
    : (Node.map entries).IsRightOf indent := by
  unfold Node.IsRightOf Node.positions
  rw [List.forall_mem_map]
  intro entry hentry
  rw [← (h entry hentry).column] at hright
  exact hright

theorem nests_list {lines : List Line} {column : Nat} {items : List Item}
    (h : ∀ item ∈ items, ItemNests lines column item)
    (hlines : (itemPlaces items).Pairwise (· < ·))
    : (Node.list items).Nests lines := by
  apply Node.Nests.list
  . apply stacked_of_column column
    . exact List.forall_mem_map.mpr fun item hitem => (h item hitem).column
    . rw [Node.positions, List.map_map]
      exact hlines
  . exact fun item hitem => (h item hitem).written
  . exact fun item hitem => (h item hitem).right
  . exact fun item hitem => (h item hitem).value

theorem isRightOf_list {lines : List Line} {indent column : Nat} {items : List Item}
    (h : ∀ item ∈ items, ItemNests lines column item) (hright : indent < column)
    : (Node.list items).IsRightOf indent := by
  unfold Node.IsRightOf Node.positions
  rw [List.forall_mem_map]
  intro item hitem
  rw [← (h item hitem).column] at hright
  exact hright

theorem buildBlock_block (line : Line) (rest : List Line)
    : let lines := block (line :: rest)
      let items := buildItems line.indent lines
      let entries := buildEntries line.indent lines
      buildBlock lines
        =
      if line.token.isItem then ⟨.list items.value, items.notes⟩
      else ⟨.map entries.value, entries.notes⟩ := by
  have hcons : ∃ later, block (line :: rest) = line :: later := by
    by_cases hitem : line.token.isItem
    . have hfirst : inList line.indent line := by
        simp [inList, hitem]
      rw [block_of_isItem hitem, List.takeWhile_cons_of_pos hfirst]
      exact ⟨_, rfl⟩
    . simp [block, hitem]
  obtain ⟨later, hlater⟩ := hcons
  dsimp only
  rw [hlater]
  unfold buildBlock
  rfl

theorem mem_block_item {line other : Line} {rest : List Line} (hitem : line.token.isItem)
    (h : other ∈ block (line :: rest))
    : inList line.indent other := by
  rw [block_of_isItem hitem] at h
  exact List.mem_takeWhile_imp h

theorem mem_block_entry {line other : Line} {rest : List Line} (hitem : ¬ line.token.isItem)
    (h : other ∈ block (line :: rest))
    : line.indent ≤ other.indent := by
  have hblock : block (line :: rest) = (line :: rest).takeWhile (line.indent ≤ ·.indent) := by
    simp [block, hitem]
  rw [hblock] at h
  simpa using List.mem_takeWhile_imp h

/-- Lines with rising numbers, in which the bodies of items start behind their dashes. -/
structure LaidOut (lines : List Line) : Prop where
  numbers : (numbers lines).Pairwise (· < ·)
  dashes : ∀ line ∈ lines, line.StartsBehindDash

section Build

variable {all : List Line}

mutual

theorem buildBlock_nests (hall : LaidOut all) (lines : List Line) (h : lines.Sublist all)
    : let node := (buildBlock (block lines)).value
      node.Nests all ∧
      ∀ indent,
        (startsDeeper indent lines → node.IsRightOf (indent + 1)) ∧
        (startsBlock indent lines → node.IsBelowKey (indent + 1)) := by
  cases lines with
  | nil =>
    have hempty : buildBlock (block []) = ⟨.empty, []⟩ := by
      unfold block buildBlock
      rfl
    rw [hempty]
    exact ⟨.empty, fun _ => ⟨fun _ => List.forall_mem_nil _, fun _ => List.forall_mem_nil _⟩⟩
  | cons line rest =>
    have hlines := (block_sublist (line :: rest)).trans h
    dsimp only
    rw [buildBlock_block]
    by_cases hitem : line.token.isItem
    . have hnests := buildItems_nests hall line.indent (block (line :: rest)) hlines
        fun other hother => mem_block_item hitem hother
      have hplaces := (places_buildItems line.indent (block (line :: rest))).trans
        (hlines.map Line.number)
      rw [if_pos hitem]
      refine ⟨nests_list hnests (hall.numbers.sublist hplaces), ?_⟩
      intro indent
      constructor
      . intro hdeeper
        exact isRightOf_list hnests (by simpa [startsDeeper] using hdeeper)
      . intro hstarts item hmem
        rw [(hnests item hmem).column]
        simp [startsBlock, inList] at hstarts
        omega
    . have hnests := buildEntries_nests hall line.indent (block (line :: rest)) hlines
        fun other hother => mem_block_entry hitem hother
      have hplaces := (places_buildEntries line.indent (block (line :: rest))).trans
        (hlines.map Line.number)
      rw [if_neg hitem]
      refine ⟨nests_map hnests (hall.numbers.sublist hplaces), ?_⟩
      intro indent
      constructor
      . intro hdeeper
        exact isRightOf_map hnests (by simpa [startsDeeper] using hdeeper)
      . intro hstarts
        exact isRightOf_map hnests (by simpa [startsBlock, inList, hitem] using hstarts)
termination_by 4 * lines.length + 1
decreasing_by
  . have := length_block_le (line :: rest)
    grind
  . have := length_block_le (line :: rest)
    grind

theorem buildValue_nests (hall : LaidOut all) (indent : Nat) (owner : Line)
    (value : Option Scalar) (lines : List Line) (h : lines.Sublist all)
    : let node := (buildValue indent owner value lines).value
      node.Nests all ∧ node.IsBelowKey (indent + 1) := by
  unfold buildValue
  split
  . exact ⟨.scalar _, List.forall_mem_nil _⟩
  . split
    . next hstarts =>
      obtain ⟨hnests, hcolumns⟩ := buildBlock_nests hall lines h
      exact ⟨hnests, (hcolumns indent).2 hstarts⟩
    . exact ⟨.empty, List.forall_mem_nil _⟩
termination_by 4 * lines.length + 2

theorem buildEntries_nests (hall : LaidOut all) (indent : Nat) (lines : List Line)
    (h : lines.Sublist all) (hdeep : ∀ line ∈ lines, indent ≤ line.indent)
    : ∀ entry ∈ (buildEntries indent lines).value, EntryNests all (indent + 1) entry := by
  unfold buildEntries
  split
  . exact List.forall_mem_nil _
  . next line rest =>
    obtain ⟨hfirst, hrest⟩ := List.forall_mem_cons.mp hdeep
    have hbelow := (List.sublist_cons_self line rest).trans h
    have hmore (later : List Line) (hbehind : later <:+ rest)
        : ∀ entry ∈ (buildEntries indent later).value, EntryNests all (indent + 1) entry :=
      buildEntries_nests hall indent later (hbehind.sublist.trans hbelow)
        fun other hother => hrest other (hbehind.subset hother)
    have hskip := hmore _ (pastDeeper_suffix indent rest)
    split
    . exact hskip
    . next hindent =>
      have hcolumn : line.column = indent + 1 := by
        unfold Line.column
        omega
      have hentry (value : Option Scalar) {label : Label} (hlabel : line.label? = some label)
          (hplace : label.column = line.column)
          : ∀ entry ∈ (label, (buildValue indent line value rest).value) ::
              (buildEntries indent (afterValue indent value rest)).value,
            EntryNests all (indent + 1) entry := by
        obtain ⟨hnests, hkey⟩ := buildValue_nests hall indent line value rest hbelow
        have hwritten : ∃ line ∈ all, line.label? = some label :=
          ⟨line, h.subset List.mem_cons_self, hlabel⟩
        rw [List.forall_mem_cons]
        rw [hcolumn] at hplace
        refine ⟨⟨hplace, hwritten, ?_, hnests⟩, hmore _ (afterValue_suffix indent value rest)⟩
        rw [hplace]
        exact hkey
      split
      . next key value htoken => exact hentry value (by simp [Line.label?, htoken]) rfl
      . next id kind provider htoken => exact hentry none (by simp [Line.label?, htoken]) rfl
      . exact hskip
      . exact hskip
      . exact hmore rest (List.suffix_refl rest)
termination_by 4 * lines.length
decreasing_by
  . have := hbehind.length_le
    grind
  . grind

theorem buildItem_nests (hall : LaidOut all) (indent column : Nat) (line : Line)
    (body : ItemBody) (lines : List Line) (h : (line :: lines).Sublist all)
    (hindent : line.indent = indent) (htoken : line.token = .item column body)
    : let node := (buildItem indent column line body lines).value
      node.Nests all ∧ node.IsRightOf (indent + 1) := by
  have hlines := (List.sublist_cons_self line lines).trans h
  unfold buildItem
  split
  . split
    . next hstarts =>
      obtain ⟨hnests, hcolumns⟩ := buildBlock_nests hall lines hlines
      exact ⟨hnests, (hcolumns indent).1 hstarts⟩
    . exact ⟨.empty, List.forall_mem_nil _⟩
  . exact ⟨.scalar _, List.forall_mem_nil _⟩
  . next key value =>
    have hbehind := afterValue_suffix column value lines
    have hsublist := (moreEntries_sublist column _).trans hbehind.sublist
    have hdeep : ∀ other ∈ moreEntries column (afterValue column value lines),
        column ≤ other.indent := by
      intro other hother
      unfold moreEntries at hother
      split at hother
      . simpa using List.mem_takeWhile_imp hother
      . cases hother
    have hmore := buildEntries_nests hall column (moreEntries column (afterValue column value lines))
      (hsublist.trans hlines) hdeep
    have hplaces := (places_buildEntries column _).trans (hsublist.map Line.number)
    obtain ⟨hnests, hkey⟩ := buildValue_nests hall column line value lines hlines
    have hfirst : EntryNests all (column + 1)
        ({ line.label key with column := column + 1 }, (buildValue column line value lines).value) :=
      ⟨rfl, ⟨line, h.subset List.mem_cons_self, by simp [Line.label?, htoken]⟩, hkey, hnests⟩
    have hentries := List.forall_mem_cons.mpr ⟨hfirst, hmore⟩
    have hright := hall.dashes line (h.subset List.mem_cons_self) column _ htoken
    constructor
    . apply nests_map hentries
      exact hall.numbers.sublist ((hplaces.cons_cons line.number).trans (h.map Line.number))
    . exact isRightOf_map hentries (by omega)
termination_by 4 * lines.length + 3
decreasing_by
  . omega
  . have := hsublist.length_le
    omega
  . omega

theorem buildItems_nests (hall : LaidOut all) (indent : Nat) (lines : List Line)
    (h : lines.Sublist all) (hlist : ∀ line ∈ lines, inList indent line)
    : ∀ item ∈ (buildItems indent lines).value, ItemNests all (indent + 1) item := by
  unfold buildItems
  split
  . exact List.forall_mem_nil _
  . next line rest =>
    obtain ⟨hfirst, hrest⟩ := List.forall_mem_cons.mp hlist
    have hbelow := (List.sublist_cons_self line rest).trans h
    have hmore (later : List Line) (hbehind : later <:+ rest)
        : ∀ item ∈ (buildItems indent later).value, ItemNests all (indent + 1) item :=
      buildItems_nests hall indent later (hbehind.sublist.trans hbelow)
        fun other hother => hrest other (hbehind.subset hother)
    split
    . exact hmore _ (pastDeeper_suffix indent rest)
    . next hindent =>
      have hsame : line.indent = indent := by
        simp [inList] at hfirst
        omega
      split
      . next column body htoken =>
        obtain ⟨hnests, hright⟩ := buildItem_nests hall indent column line body rest h hsame htoken
        have hcolumn : line.column = indent + 1 := congrArg (· + 1) hsame
        have hwritten : ∃ other ∈ all, other.token.isItem ∧ other.place = line.place :=
          ⟨line, h.subset List.mem_cons_self, by simp [htoken, Token.isItem], rfl⟩
        rw [List.forall_mem_cons]
        refine ⟨⟨hcolumn, hwritten, ?_, hnests⟩, hmore _ (afterItem_suffix indent column body rest)⟩
        rw [Line.place, hcolumn]
        exact hright
      . exact List.forall_mem_nil _
termination_by 4 * lines.length
decreasing_by
  . have := hbehind.length_le
    grind
  . grind

end

end Build

theorem buildTree_eq_buildEntries (lines : List Line)
    : ∃ later, later <:+ lines ∧ (buildTree lines).value = (buildEntries 0 later).value := by
  induction lines using lines_induction with
  | nil =>
    refine ⟨[], List.suffix_refl [], ?_⟩
    unfold buildTree buildEntries
    rfl
  | cons line rest ih =>
    have hmore (next : List Line) (hnext : next <:+ rest)
        : ∃ later, later <:+ line :: rest ∧
            (buildTree next).value = (buildEntries 0 later).value := by
      obtain ⟨later, hlater, htree⟩ := ih next hnext
      exact ⟨later, hlater.trans (hnext.trans (List.suffix_cons line rest)), htree⟩
    unfold buildTree
    split
    . exact hmore _ (pastDeeper_suffix 0 rest)
    . split
      . exact hmore _ (List.dropWhile_suffix _)
      . exact ⟨line :: rest, List.suffix_refl _, rfl⟩

/--
The tree of lines, which may be any of the lines of a text, is nested as its text is. The entries of
each map, and the items of each list, stand one below the other, each where its line has it; what an
item holds stands to the right of its dash, a map to the right of its key, and a list to the right of
its key or below it.
-/
theorem buildTree_nests {source : String} {lines : List Line}
    (h : lines.Sublist (linesOf source).value)
    : (Node.map (buildTree lines).value).Nests lines := by
  have hnumbers := pairwise_numbers 1 0 (rawLinesOf source.toList)
  have hall : LaidOut lines :=
    ⟨hnumbers.sublist (h.map Line.number),
      fun line hline => linesOf_startsBehindDash line (h.subset hline)⟩
  obtain ⟨later, hlater, htree⟩ := buildTree_eq_buildEntries lines
  have hentries := buildEntries_nests hall 0 later hlater.sublist fun line _ => Nat.zero_le _
  have hplaces := (places_buildEntries 0 later).trans (numbers_sublist hlater)
  rw [htree]
  exact nests_map hentries (hall.numbers.sublist hplaces)

/-- A list in the column of its key, maps behind dashes, and lines that fit nowhere. -/
theorem buildTree_nests_of_strayLines
    : let source := String.intercalate "\n"
        ["steps:",
          "- id: a",
          "  with:",
          "  -   deep:",
          "        er: 1",
          "      more: 2",
          "   stray: 3",
          "  kind: llm",
          "-",
          "  - last",
          "vars:",
          "   x: 1",
          "  y: 2",
          ""]
      let lines := (linesOf source).value
      let tree := buildTree lines
      lines.Sublist (linesOf source).value ∧
      (entryLines tree.value, tree.notes.map Diagnostic.line)
        =
      ([1, 2, 3, 4, 5, 6, 8, 9, 10, 11, 12], [7, 13]) ∧
      (Node.map tree.value).Nests lines := by
  intro source lines tree
  have hlines : lines.Sublist (linesOf source).value := .refl _
  exact ⟨hlines, by decide +kernel, buildTree_nests hlines⟩

end Runbook.Source
