import Mathlib.Data.List.TakeWhile
import Runbook.Proofs.Source.Document

/-!
This module contains the reason why the lines of a laid out value are built into the same value.
-/

namespace Runbook.Source

theorem linesFrom_append (number : Nat) (first second : List Row)
    : linesFrom number (first ++ second)
        =
      linesFrom number first ++ linesFrom (number + first.length) second := by
  induction first generalizing number with
  | nil => rfl
  | cons row rows ih =>
    rw [List.cons_append, linesFrom, ih, linesFrom]
    rw [List.cons_append, List.length_cons, Nat.add_assoc, Nat.add_comm 1]

theorem mem_linesFrom {number : Nat} {rows : List Row} {line : Line}
    (h : line ∈ linesFrom number rows)
    : ∃ row ∈ rows, line.indent = row.indent ∧ line.token = row.token := by
  induction rows generalizing number with
  | nil => cases h
  | cons row rows ih =>
    cases h with
    | head => exact ⟨row, List.mem_cons_self .., rfl, rfl⟩
    | tail _ hrest =>
      obtain ⟨other, hmem, hother⟩ := ih hrest
      exact ⟨other, List.mem_cons_of_mem row hmem, hother⟩

/-- Lines that do not go on at an indentation. -/
def EndsBefore (indent : Nat) (lines : List Line) : Prop :=
  ∀ line ∈ lines.head?, line.indent < indent

theorem EndsBefore.nil (indent : Nat) : EndsBefore indent [] := by
  intro line hline
  cases hline

theorem EndsBefore.cons {indent : Nat} {line : Line} (h : line.indent < indent) (rest : List Line)
    : EndsBefore indent (line :: rest) := by
  intro other hother
  cases hother
  exact h

theorem EndsBefore.mono {indent deeper : Nat} {lines : List Line} (h : EndsBefore indent lines)
    (hle : indent ≤ deeper)
    : EndsBefore deeper lines := by
  intro line hline
  have := h line hline
  omega

theorem EndsBefore.takeWhile {indent : Nat} {lines : List Line} (h : EndsBefore indent lines)
    {p : Line → Bool} (hp : ∀ line, line.indent < indent → p line = false)
    : lines.takeWhile p = [] ∧ lines.dropWhile p = lines := by
  cases lines with
  | nil => exact ⟨rfl, rfl⟩
  | cons line rest =>
    have hline := hp line (h line rfl)
    constructor
    . rw [List.takeWhile_cons_of_neg]
      simp [hline]
    . rw [List.dropWhile_cons_of_neg]
      simp [hline]

theorem EndsBefore.span {indent : Nat} {here later : List Line} (h : EndsBefore indent later)
    {p : Line → Bool} (hhere : ∀ line ∈ here, p line)
    (hlater : ∀ line, line.indent < indent → p line = false)
    : (here ++ later).takeWhile p = here ∧ (here ++ later).dropWhile p = later := by
  obtain ⟨htake, hdrop⟩ := h.takeWhile hlater
  rw [List.takeWhile_append_of_pos hhere, List.dropWhile_append_of_pos hhere]
  rw [htake, hdrop, List.append_nil]
  exact ⟨rfl, rfl⟩

theorem EndsBefore.pastDeeper {indent : Nat} {lines : List Line}
    (h : EndsBefore (indent + 1) lines)
    : pastDeeper indent lines = lines := by
  apply (h.takeWhile _).2
  intro line hline
  rw [decide_eq_false_iff_not]
  omega

theorem EndsBefore.belowNotes {indent : Nat} {lines : List Line}
    (h : EndsBefore (indent + 1) lines) (owner : Line)
    : belowNotes owner indent lines = [] := by
  unfold Source.belowNotes
  split
  . rfl
  . next line rest =>
    have := h line rfl
    rw [if_neg (by omega)]

theorem EndsBefore.buildValue {indent : Nat} {lines : List Line}
    (h : EndsBefore (indent + 1) lines) (owner : Line) (value : Scalar)
    : buildValue indent owner (some value) lines = ⟨.scalar value, []⟩ := by
  unfold Source.buildValue
  exact congrArg (Noted.mk _) (h.belowNotes owner)

namespace Document

theorem endsBefore_entryRows (indent number : Nat) (entries : List (Atom × Document))
    {later : List Line} (h : EndsBefore (indent + 1) later)
    : EndsBefore (indent + 1) (linesFrom number (entryRows indent entries) ++ later) := by
  cases entries with
  | nil => exact h
  | cons entry rest =>
    obtain ⟨key, value⟩ := entry
    unfold entryRows
    exact .cons (Nat.lt_succ_self indent) _

theorem endsBefore_itemRows (indent number : Nat) (items : List Document)
    : EndsBefore (indent + 1) (linesFrom number (itemRows indent items)) := by
  cases items with
  | nil => exact .nil _
  | cons value rest =>
    obtain ⟨body, below, hrows⟩ := itemRows_eq_cons indent value rest
    rw [hrows]
    exact .cons (Nat.lt_succ_self indent) _

variable {indent number : Nat} {later : List Line}

theorem block_entryRows (number : Nat) {entries : List (Atom × Document)} (h : entries ≠ [])
    (hlater : EndsBefore indent later)
    : block (linesFrom number (entryRows indent entries) ++ later)
        =
      linesFrom number (entryRows indent entries) ∧
      afterBlock (linesFrom number (entryRows indent entries) ++ later) = later := by
  have hhere : ∀ line ∈ linesFrom number (entryRows indent entries),
      decide (indent ≤ line.indent) := by
    intro line hline
    obtain ⟨row, hrow, hindent, _⟩ := mem_linesFrom hline
    rw [decide_eq_true_eq, hindent]
    exact le_indent_of_mem_entryRows entries row hrow
  have hspan := hlater.span hhere (by simp)
  revert hspan
  cases entries with
  | nil => exact absurd rfl h
  | cons entry rest =>
    obtain ⟨key, value⟩ := entry
    intro hspan
    exact hspan

theorem block_itemRows (number : Nat) {items : List Document} (h : items ≠ [])
    (hlater : EndsBefore indent later)
    : block (linesFrom number (itemRows indent items) ++ later)
        =
      linesFrom number (itemRows indent items) ∧
      afterBlock (linesFrom number (itemRows indent items) ++ later) = later := by
  have hhere : ∀ line ∈ linesFrom number (itemRows indent items), inList indent line := by
    intro line hline
    obtain ⟨row, hrow, hindent, htoken⟩ := mem_linesFrom hline
    unfold inList
    rw [hindent, htoken]
    simpa using inList_of_mem_itemRows items row hrow
  have hother : ∀ line : Line, line.indent < indent → inList indent line = false := by
    intro line hline
    unfold inList
    simp
    omega
  have hspan := hlater.span hhere hother
  cases items with
  | nil => exact absurd rfl h
  | cons value rest =>
    obtain ⟨body, below, hrows⟩ := itemRows_eq_cons indent value rest
    rw [hrows] at hspan ⊢
    exact hspan

theorem block_rows (number : Nat) {value : Document} (h : value.isTidy) (hatom : value.atom? = none)
    (hlater : EndsBefore indent later)
    : block (linesFrom number (value.rows indent) ++ later)
        =
      linesFrom number (value.rows indent) ∧
      afterBlock (linesFrom number (value.rows indent) ++ later) = later ∧
      ∃ line rest,
        linesFrom number (value.rows indent) ++ later = line :: rest ∧ line.indent = indent := by
  cases value with
  | atom value => cases hatom
  | map entries =>
    obtain ⟨hne, _⟩ := isTidy_map.mp h
    obtain ⟨hblock, hafter⟩ := block_entryRows number hne hlater
    refine ⟨hblock, hafter, ?_⟩
    cases entries with
    | nil => exact absurd rfl hne
    | cons entry rest => exact ⟨_, _, rfl, rfl⟩
  | list items =>
    obtain ⟨hne, _⟩ := isTidy_list.mp h
    obtain ⟨hblock, hafter⟩ := block_itemRows number hne hlater
    refine ⟨hblock, hafter, ?_⟩
    cases items with
    | nil => exact absurd rfl hne
    | cons value rest =>
      obtain ⟨body, below, hrows⟩ := itemRows_eq_cons indent value rest
      change ∃ line rest, linesFrom number (itemRows indent (value :: _)) ++ later = line :: rest ∧ _
      rw [hrows]
      exact ⟨_, _, rfl, rfl⟩

end Document

theorem buildEntries_nil (indent : Nat) : buildEntries indent [] = ⟨[], []⟩ := by
  unfold buildEntries
  rfl

theorem buildEntries_cons {indent : Nat} {line : Line} {key : String} {value : Option Scalar}
    {rest later : List Line} {node : Noted Node} {entries : Noted (List Entry)}
    (hvalue : buildValue indent line value rest = node)
    (hafter : afterValue indent value rest = later)
    (hentries : buildEntries indent later = entries) (hindent : line.indent = indent)
    (htoken : line.token = .entry key value)
    : buildEntries indent (line :: rest)
        =
      ⟨(line.label key, node.value) :: entries.value, node.notes ++ entries.notes⟩ := by
  unfold buildEntries
  rw [if_neg (by omega), htoken]
  dsimp only
  rw [hvalue, hafter, hentries]

theorem buildEntries_step {indent : Nat} {line : Line} {id : String} {kind provider : Option String}
    {rest later : List Line} {node : Noted Node} {entries : Noted (List Entry)}
    (hvalue : buildValue indent line none rest = node) (hafter : afterValue indent none rest = later)
    (hentries : buildEntries indent later = entries) (hindent : line.indent = indent)
    (htoken : line.token = .step id kind provider)
    : buildEntries indent (line :: rest)
        =
      ⟨({ line.label id with head := some ⟨kind, provider⟩ }, node.value) :: entries.value,
        node.notes ++ entries.notes⟩ := by
  unfold buildEntries
  rw [if_neg (by omega), htoken]
  dsimp only
  rw [hvalue, hafter, hentries]

theorem buildItems_cons {indent column : Nat} {line : Line} {body : ItemBody}
    {rest later : List Line} {node : Noted Node} {items : Noted (List Item)}
    (hitem : buildItem indent column line body rest = node)
    (hafter : afterItem indent column body rest = later)
    (hitems : buildItems indent later = items) (hindent : line.indent = indent)
    (htoken : line.token = .item column body)
    : buildItems indent (line :: rest)
        =
      ⟨(line.place, node.value) :: items.value, node.notes ++ items.notes⟩ := by
  unfold buildItems
  rw [if_neg (by omega), htoken]
  dsimp only
  rw [hitem, hafter, hitems]

theorem buildValue_of_block {indent : Nat} {lines : List Line} (hstarts : startsBlock indent lines)
    (hblock : block lines = lines) (owner : Line)
    : buildValue indent owner none lines = buildBlock lines ∧ afterValue indent none lines = [] := by
  have hafter : afterBlock lines = [] := by
    have happend := block_append_afterBlock lines
    rw [hblock] at happend
    exact List.append_right_eq_self.mp happend
  unfold buildValue afterValue
  dsimp only
  rw [if_pos hstarts, if_pos hstarts, hblock]
  exact ⟨rfl, hafter⟩

section FirstLine

variable {indent : Nat} {line : Line} {rest : List Line} (owner : Line)

theorem buildValue_entries (hdeeper : indent < line.indent) (hitem : line.token.isItem = false)
    (hwithin : ∀ other ∈ line :: rest, line.indent ≤ other.indent)
    : let entries := buildEntries line.indent (line :: rest)
      buildValue indent owner none (line :: rest) = ⟨.map entries.value, entries.notes⟩ ∧
      afterValue indent none (line :: rest) = [] := by
  intro entries
  have hstarts : startsBlock indent (line :: rest) = true := by
    simp [startsBlock, inList, hdeeper]
  have hblock : block (line :: rest) = line :: rest := by
    unfold block
    dsimp only
    rw [hitem]
    apply List.takeWhile_eq_self_iff.mpr
    exact fun other hother => decide_eq_true (hwithin other hother)
  obtain ⟨hvalue, hafter⟩ := buildValue_of_block hstarts hblock owner
  rw [hvalue]
  unfold buildBlock
  rw [hitem]
  exact ⟨rfl, hafter⟩

end FirstLine

theorem buildBlock_entryRow (indent number : Nat) (key : Atom) (value : Option Atom)
    (rest : List Line)
    : let lines := (Row.entry indent key value).line number :: rest
      buildBlock lines
        =
      ⟨.map (buildEntries indent lines).value, (buildEntries indent lines).notes⟩ := by
  intro lines
  unfold buildBlock
  rfl

theorem buildBlock_itemRow (indent number : Nat) (body : Body) (rest : List Line)
    : let lines := (Row.item indent body).line number :: rest
      buildBlock lines = ⟨.list (buildItems indent lines).value, (buildItems indent lines).notes⟩ := by
  intro lines
  unfold buildBlock
  rfl

theorem insert_of_not_mem {fields : Json.Fields} {key : String} (h : key ∉ fields.keys)
    (value : Json)
    : fields.insert key value = fields ++ [(key, value)] := by
  induction fields with
  | nil => rfl
  | cons field rest ih =>
    obtain ⟨k, v⟩ := field
    unfold Json.Fields.keys at h ih
    rw [List.map_cons, List.mem_cons, not_or] at h
    unfold Json.Fields.insert
    rw [if_neg (Ne.symm h.1), ih h.2]
    rfl

theorem Node.entriesToJson_of_nodup (entries : List Entry) (fields : Json.Fields)
    (h : (fields.keys ++ entries.map fun entry => entry.1.key).Nodup)
    : entriesToJson fields entries
        =
      fields ++ entries.map fun (label, node) => (label.key, node.toJson) := by
  induction entries generalizing fields with
  | nil => simp [entriesToJson]
  | cons entry rest ih =>
    obtain ⟨label, node⟩ := entry
    have hnew : label.key ∉ fields.keys := by
      intro hmem
      rw [List.map_cons, List.nodup_append] at h
      exact h.2.2 _ hmem _ (List.mem_cons_self ..) rfl
    unfold entriesToJson
    rw [insert_of_not_mem hnew, ih]
    . simp
    . simpa [Json.Fields.keys] using h

namespace Document

mutual

/-- The node that a value is built into if the first of its rows is a given line. -/
def node (indent number : Nat) : Document → Node
  | atom value => .scalar (.atom value)
  | map entries => .map (entryNodes indent number entries)
  | list items => .list (itemNodes indent number items)

def entryNodes (indent number : Nat) : List (Atom × Document) → List Entry
  | [] => []
  | (key, value) :: rest =>
    ({ key := key.text, line := number, column := indent + 1 },
        value.node (indent + 2) (number + 1)) ::
      entryNodes indent (number + 1 + (value.rows (indent + 2)).length) rest

/-- The items that the rows of a list are built into. A map begins on the line of its dash. -/
def itemNodes (indent number : Nat) : List Document → List Item
  | [] => []
  | atom value :: rest =>
    (⟨number, indent + 1⟩, .scalar (.atom value)) :: itemNodes indent (number + 1) rest
  | map entries :: rest =>
    (⟨number, indent + 1⟩, .map (entryNodes (indent + 2) number entries)) ::
      itemNodes indent (number + (entryRows (indent + 2) entries).length) rest
  | list items :: rest =>
    (⟨number, indent + 1⟩, .list (itemNodes (indent + 2) (number + 1) items)) ::
      itemNodes indent (number + 1 + (itemRows (indent + 2) items).length) rest

end

mutual

theorem node_toJson (value : Document) (h : value.isTidy) (indent number : Nat)
    : (value.node indent number).toJson = value.toJson := by
  cases value with
  | atom value => rfl
  | map entries =>
    obtain ⟨_, htidy⟩ := isTidy_map.mp h
    have hentries := entryNodes_toJson entries htidy indent number
    have hkeys : ((entryNodes indent number entries).map fun entry => entry.1.key).Nodup := by
      have hnodup := nodup_keys htidy
      rw [← hentries] at hnodup
      unfold Json.Fields.keys at hnodup
      rw [List.map_map] at hnodup
      exact hnodup
    unfold node Node.toJson
    rw [Node.entriesToJson_of_nodup _ [] hkeys, hentries]
    rfl
  | list items =>
    unfold node Node.toJson
    rw [itemNodes_toJson items (isTidy_list.mp h).2]
    rfl

theorem entryNodes_toJson (entries : List (Atom × Document)) (h : entriesTidy entries)
    (indent number : Nat)
    : (entryNodes indent number entries).map (fun (label, node) => (label.key, node.toJson))
        =
      entriesToJson entries := by
  cases entries with
  | nil => rfl
  | cons entry rest =>
    obtain ⟨key, value⟩ := entry
    obtain ⟨_, _, _, hvalue, hrest⟩ := entriesTidy_cons.mp h
    unfold entryNodes entriesToJson
    rw [List.map_cons, entryNodes_toJson rest hrest]
    dsimp only
    rw [node_toJson value hvalue]

theorem itemNodes_toJson (items : List Document) (h : itemsTidy items) (indent number : Nat)
    : Node.itemsToJson (itemNodes indent number items) = itemsToJson items := by
  cases items with
  | nil => rfl
  | cons value rest =>
    obtain ⟨hvalue, hrest⟩ := itemsTidy_cons.mp h
    have hjson := node_toJson value hvalue
    cases value with
    | atom value =>
      unfold itemNodes Node.itemsToJson itemsToJson
      rw [itemNodes_toJson rest hrest]
      rfl
    | map entries =>
      unfold itemNodes Node.itemsToJson itemsToJson
      rw [itemNodes_toJson rest hrest, ← hjson (indent + 2) number]
      rfl
    | list items =>
      unfold itemNodes Node.itemsToJson itemsToJson
      rw [itemNodes_toJson rest hrest, ← hjson (indent + 2) (number + 1)]
      rfl

end

theorem keys_entryNodes (indent number : Nat) (entries : List (Atom × Document))
    : (entryNodes indent number entries).map (fun entry => entry.1.key)
        =
      entries.map fun entry => entry.1.text := by
  induction entries generalizing number with
  | nil => rfl
  | cons entry rest ih =>
    obtain ⟨key, value⟩ := entry
    unfold entryNodes
    rw [List.map_cons, List.map_cons, ih]

theorem find?_entryNodes (indent number : Nat) (entries : List (Atom × Document)) (name : String)
    : ∃ label place below,
        (entryNodes indent number entries).find? (fun entry => entry.1.key = name)
          =
        (entries.find? fun entry => entry.1.text = name).map fun entry =>
          (label, entry.2.node place below) := by
  induction entries generalizing number with
  | nil => exact ⟨⟨"", 0, 0, none⟩, 0, 0, rfl⟩
  | cons entry rest ih =>
    obtain ⟨key, value⟩ := entry
    unfold entryNodes
    by_cases h : key.text = name
    . rw [List.find?_cons_of_pos (by simpa using h), List.find?_cons_of_pos (by simpa using h)]
      exact ⟨_, _, _, rfl⟩
    . rw [List.find?_cons_of_neg (by simpa using h), List.find?_cons_of_neg (by simpa using h)]
      exact ih _

variable {indent number : Nat} {later : List Line}

theorem buildValue_rows {column deeper : Nat} {value : Document} (h : value.isTidy)
    (hblock : value.atom? = none →
      buildBlock (linesFrom number (value.rows deeper)) = ⟨value.node deeper number, []⟩)
    (hdeeper : column < deeper) (hlater : EndsBefore (column + 1) later) (line : Line)
    : buildValue column line (value.atom?.map .atom)
          (linesFrom number (value.rows deeper) ++ later)
        =
      ⟨value.node deeper number, []⟩ ∧
      afterValue column (value.atom?.map .atom) (linesFrom number (value.rows deeper) ++ later)
        =
      later := by
  cases hatom : value.atom? with
  | some atom =>
    cases value with
    | atom value =>
      cases hatom
      constructor
      . exact hlater.buildValue line _
      . unfold afterValue
        exact hlater.pastDeeper
    | map entries => cases hatom
    | list items => cases hatom
  | none =>
    obtain ⟨hhere, hafter, first, rest, hlines, hfirst⟩ :=
      block_rows number h hatom (hlater.mono hdeeper)
    have hstarts : startsBlock column (linesFrom number (value.rows deeper) ++ later) = true := by
      rw [hlines]
      unfold startsBlock inList
      simp [hfirst, hdeeper]
    unfold buildValue afterValue
    dsimp only [Option.map_none]
    rw [if_pos hstarts, if_pos hstarts, hhere, hafter]
    exact ⟨hblock hatom, rfl⟩

theorem buildItem_atom (value : Atom) (hlater : EndsBefore (indent + 1) later) (column : Nat)
    (line : Line)
    : buildItem indent column line (.scalar (.atom value)) later = ⟨.scalar (.atom value), []⟩ ∧
      afterItem indent column (.scalar (.atom value)) later = later := by
  constructor
  . unfold buildItem
    exact congrArg (Noted.mk _) (hlater.belowNotes line)
  . unfold afterItem
    exact hlater.pastDeeper

theorem buildItem_rows {deeper : Nat} {value : Document} (h : value.isTidy)
    (hatom : value.atom? = none)
    (hblock : buildBlock (linesFrom number (value.rows deeper)) = ⟨value.node deeper number, []⟩)
    (hdeeper : indent < deeper) (hlater : EndsBefore (indent + 1) later) (column : Nat)
    (line : Line)
    : buildItem indent column line .empty (linesFrom number (value.rows deeper) ++ later)
        =
      ⟨value.node deeper number, []⟩ ∧
      afterItem indent column .empty (linesFrom number (value.rows deeper) ++ later) = later := by
  obtain ⟨hhere, hafter, first, rest, hlines, hfirst⟩ :=
    block_rows number h hatom (hlater.mono hdeeper)
  have hstarts : startsDeeper indent (linesFrom number (value.rows deeper) ++ later) = true := by
    rw [hlines]
    unfold startsDeeper
    simp [hfirst, hdeeper]
  unfold buildItem afterItem
  dsimp only
  rw [if_pos hstarts, if_pos hstarts, hhere, hafter]
  exact ⟨hblock, rfl⟩

theorem continuesMap_entryRows {entries : List (Atom × Document)} (h : entries ≠ [])
    : continuesMap indent (linesFrom number (entryRows indent entries) ++ later) = true := by
  cases entries with
  | nil => exact absurd rfl h
  | cons entry rest =>
    obtain ⟨key, value⟩ := entry
    unfold entryRows linesFrom continuesMap
    simp [Row.line, Row.indent, Row.token, Token.isItem]

theorem moreEntries_entryRows (number : Nat) (entries : List (Atom × Document))
    (hlater : EndsBefore indent later)
    : let next := linesFrom number (entryRows indent entries) ++ later
      moreEntries indent next = linesFrom number (entryRows indent entries) ∧
      (if continuesMap indent next then next.dropWhile (indent ≤ ·.indent) else next) = later := by
  dsimp only
  unfold moreEntries
  cases entries with
  | nil =>
    have hstops : continuesMap indent later = false := by
      cases later with
      | nil => rfl
      | cons line rest =>
        have := hlater line rfl
        unfold continuesMap
        simp
        omega
    have hnil : linesFrom number (entryRows indent []) ++ later = later := rfl
    rw [hnil, hstops]
    exact ⟨rfl, rfl⟩
  | cons entry rest =>
    have hne : entry :: rest ≠ [] := List.cons_ne_nil entry rest
    have hhere : ∀ line ∈ linesFrom number (entryRows indent (entry :: rest)),
        decide (indent ≤ line.indent) := by
      intro line hline
      obtain ⟨row, hrow, hindent, _⟩ := mem_linesFrom hline
      rw [decide_eq_true_eq, hindent]
      exact le_indent_of_mem_entryRows (entry :: rest) row hrow
    rw [continuesMap_entryRows hne]
    exact hlater.span hhere (by simp)

theorem buildItem_entryRows {key : Atom} {value : Document} {more : List (Atom × Document)}
    (h : entriesTidy ((key, value) :: more))
    (hblock : value.atom? = none →
      buildBlock (linesFrom (number + 1) (value.rows (indent + 4)))
        =
      ⟨value.node (indent + 4) (number + 1), []⟩)
    (hentries : ∀ next, buildEntries (indent + 2) (linesFrom next (entryRows (indent + 2) more))
        =
      ⟨entryNodes (indent + 2) next more, []⟩)
    (hlater : EndsBefore (indent + 1) later)
    : let body : Body := .entry key value.atom?
      let line := (Row.item indent body).line number
      let next := number + 1 + (value.rows (indent + 4)).length
      let lines := linesFrom (number + 1) (value.rows (indent + 4)) ++
        (linesFrom next (entryRows (indent + 2) more) ++ later)
      buildItem indent (indent + 2) line body.read lines
        =
      ⟨.map (entryNodes (indent + 2) number ((key, value) :: more)), []⟩ ∧
      afterItem indent (indent + 2) body.read lines = later := by
  intro body line next lines
  obtain ⟨_, _, _, htidy, _⟩ := entriesTidy_cons.mp h
  have hnext := endsBefore_entryRows (indent + 2) next more (hlater.mono (by omega))
  obtain ⟨hvalue, hafter⟩ := buildValue_rows htidy hblock (by omega) hnext line
  obtain ⟨hmore, hrest⟩ := moreEntries_entryRows next more
    (hlater.mono (Nat.le_succ (indent + 1)))
  unfold buildItem afterItem
  dsimp only [body, Body.read]
  rw [hafter, hmore, hrest, hvalue, hentries]
  exact ⟨rfl, rfl⟩

mutual

theorem buildBlock_rows (indent number : Nat) (value : Document) (h : value.isTidy)
    (hatom : value.atom? = none)
    : buildBlock (linesFrom number (value.rows indent)) = ⟨value.node indent number, []⟩ := by
  cases value with
  | atom value => cases hatom
  | map entries =>
    obtain ⟨hne, htidy⟩ := isTidy_map.mp h
    have hentries := buildEntries_entryRows indent number entries htidy
    change buildBlock (linesFrom number (entryRows indent entries)) = _
    cases entries with
    | nil => exact absurd rfl hne
    | cons entry rest =>
      obtain ⟨key, value⟩ := entry
      unfold entryRows linesFrom at hentries ⊢
      rw [buildBlock_entryRow, hentries]
      rfl
  | list items =>
    obtain ⟨hne, htidy⟩ := isTidy_list.mp h
    have hitems := buildItems_itemRows indent number items htidy
    change buildBlock (linesFrom number (itemRows indent items)) = _
    cases items with
    | nil => exact absurd rfl hne
    | cons value rest =>
      obtain ⟨body, below, hrows⟩ := itemRows_eq_cons indent value rest
      rw [hrows] at hitems ⊢
      unfold linesFrom at hitems ⊢
      rw [buildBlock_itemRow, hitems]
      rfl

theorem buildEntries_entryRows (indent number : Nat) (entries : List (Atom × Document))
    (h : entriesTidy entries)
    : buildEntries indent (linesFrom number (entryRows indent entries))
        =
      ⟨entryNodes indent number entries, []⟩ := by
  cases entries with
  | nil =>
    unfold entryRows linesFrom buildEntries
    rfl
  | cons entry rest =>
    obtain ⟨key, value⟩ := entry
    obtain ⟨_, _, _, hvalue, hrest⟩ := entriesTidy_cons.mp h
    have hblock := buildBlock_rows (indent + 2) (number + 1) value hvalue
    have hmore := buildEntries_entryRows indent (number + 1 + (value.rows (indent + 2)).length) rest
      hrest
    -- the next key stands where this one does, which ends what is below this one
    have hlater : EndsBefore (indent + 1)
        (linesFrom (number + 1 + (value.rows (indent + 2)).length) (entryRows indent rest)) := by
      have hends := endsBefore_entryRows indent
        (number + 1 + (value.rows (indent + 2)).length) rest (.nil _)
      rw [List.append_nil] at hends
      exact hends
    obtain ⟨hbuilt, hafter⟩ := buildValue_rows hvalue hblock (by omega) hlater
      ((Row.entry indent key value.atom?).line number)
    unfold entryRows
    rw [linesFrom, linesFrom_append]
    exact buildEntries_cons hbuilt hafter hmore rfl rfl

theorem buildItems_itemRows (indent number : Nat) (items : List Document) (h : itemsTidy items)
    : buildItems indent (linesFrom number (itemRows indent items))
        =
      ⟨itemNodes indent number items, []⟩ := by
  cases items with
  | nil =>
    unfold itemRows linesFrom buildItems
    rfl
  | cons value rest =>
    obtain ⟨hvalue, hrest⟩ := itemsTidy_cons.mp h
    have hitems (next : Nat) := buildItems_itemRows indent next rest hrest
    have hlater (next : Nat) := endsBefore_itemRows indent next rest
    cases value with
    | atom value =>
      obtain ⟨hitem, hafter⟩ := buildItem_atom value (hlater (number + 1)) (indent + 2)
        ((Row.item indent (.atom value)).line number)
      unfold itemRows
      rw [linesFrom]
      exact buildItems_cons hitem hafter (hitems _) rfl rfl
    | map entries =>
      cases entries with
      | nil => exact absurd rfl (isTidy_map.mp hvalue).1
      | cons entry more =>
        obtain ⟨key, value⟩ := entry
        have hentries := (isTidy_map.mp hvalue).2
        obtain ⟨_, _, _, hfirst, htidy⟩ := entriesTidy_cons.mp hentries
        have hblock := buildBlock_rows (indent + 4) (number + 1) value hfirst
        have hmore (next : Nat) := buildEntries_entryRows (indent + 2) next more htidy
        obtain ⟨hitem, hafter⟩ := buildItem_entryRows hentries hblock hmore (hlater _)
        -- behind the dash, then below the first key, then the further keys, then the next items
        unfold itemRows
        have hcount : number + (entryRows (indent + 2) ((key, value) :: more)).length
            = number + 1 + (value.rows (indent + 4)).length + (entryRows (indent + 2) more).length := by
          change number + (Row.entry (indent + 2) key value.atom? ::
            (value.rows (indent + 4) ++ entryRows (indent + 2) more)).length = _
          rw [List.length_cons, List.length_append]
          omega
        rw [linesFrom, linesFrom_append, linesFrom_append, itemNodes, hcount]
        exact buildItems_cons hitem hafter (hitems _) rfl rfl
    | list items =>
      have hblock := buildBlock_rows (indent + 2) (number + 1) (.list items) hvalue rfl
      obtain ⟨hitem, hafter⟩ := buildItem_rows hvalue rfl hblock (by omega)
        (hlater (number + 1 + (itemRows (indent + 2) items).length)) (indent + 1)
        ((Row.item indent .empty).line number)
      unfold itemRows
      rw [linesFrom, linesFrom_append]
      exact buildItems_cons hitem hafter (hitems _) rfl rfl

end

theorem buildValue_itemRows {column : Nat} (number : Nat) {items : List Document} (hne : items ≠ [])
    (h : itemsTidy items) (hindent : column ≤ indent) (owner : Line)
    : buildValue column owner none (linesFrom number (itemRows indent items))
        =
      ⟨.list (itemNodes indent number items), []⟩ ∧
      afterValue column none (linesFrom number (itemRows indent items)) = [] := by
  obtain ⟨hblock, _⟩ := block_itemRows number hne (.nil indent)
  have hbuilt := buildBlock_rows indent number (.list items) (isTidy_list.mpr ⟨hne, h⟩) rfl
  have hstarts : startsBlock column (linesFrom number (itemRows indent items)) = true := by
    cases items with
    | nil => exact absurd rfl hne
    | cons value rest =>
      obtain ⟨body, below, hrows⟩ := itemRows_eq_cons indent value rest
      rw [hrows, linesFrom]
      unfold startsBlock inList
      cases Nat.lt_or_eq_of_le hindent with
      | inl hdeeper => simp [Row.line, Row.indent, hdeeper]
      | inr hsame => simp [Row.line, Row.indent, Row.token, Token.isItem, hsame]
  rw [List.append_nil] at hblock
  obtain ⟨hvalue, hafter⟩ := buildValue_of_block hstarts hblock owner
  exact ⟨hvalue.trans hbuilt, hafter⟩

theorem buildTree_entryRows (number : Nat) {entries : List (Atom × Document)}
    (h : entriesTidy entries)
    : buildTree (linesFrom number (entryRows 0 entries)) = ⟨entryNodes 0 number entries, []⟩ := by
  have hentries := buildEntries_entryRows 0 number entries h
  cases entries with
  | nil =>
    unfold entryRows linesFrom buildTree
    rfl
  | cons entry rest =>
    obtain ⟨key, value⟩ := entry
    rw [← hentries]
    unfold entryRows linesFrom
    conv => lhs; unfold buildTree
    rfl

/-- A laid out map is read without a report, and it is built into the same map. -/
theorem read_write {entries : List (Atom × Document)} (h : entriesTidy entries)
    : let lines := linesOf (String.ofList (write (entryRows 0 entries)))
      let tree := buildTree lines.value
      lines.notes = [] ∧
      tree.notes = [] ∧
      (Node.map tree.value).toJson = .obj (entriesToJson entries) := by
  dsimp only
  rw [(readsAs_write (isTidy_of_mem_entryRows entries h)).linesOf]
  dsimp only
  rw [buildTree_entryRows 1 h]
  refine ⟨rfl, rfl, ?_⟩
  cases entries with
  | nil => rfl
  | cons entry rest =>
    have hne : entry :: rest ≠ [] := List.cons_ne_nil entry rest
    exact node_toJson (.map (entry :: rest)) (isTidy_map.mpr ⟨hne, h⟩) 0 1

end Document

end Runbook.Source
