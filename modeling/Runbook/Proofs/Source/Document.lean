import Runbook.Proofs.Source.Row

/-!
This module contains the layout of nested maps and lists in the rows of block notation: where its
rows stand, and that each of them can be read as it is written.
-/

namespace Runbook.Source

/-- A value before it is laid out in rows. -/
inductive Document where
  | atom (value : Atom)
  | map (entries : List (Atom × Document))
  | list (items : List Document)

namespace Document

def atom? : Document → Option Atom
  | atom value => some value
  | _ => none

mutual

def toJson : Document → Json
  | atom value => value.toJson
  | map entries => .obj (entriesToJson entries)
  | list items => .arr (itemsToJson items)

def entriesToJson : List (Atom × Document) → Json.Fields
  | [] => []
  | (key, value) :: rest => (key.text, value.toJson) :: entriesToJson rest

def itemsToJson : List Document → List Json
  | [] => []
  | value :: rest => value.toJson :: itemsToJson rest

end

mutual

def rows (indent : Nat) : Document → List Row
  | atom _ => []
  | map entries => entryRows indent entries
  | list items => itemRows indent items

/-- The rows of a map whose keys stand at an indentation; what is below a key is two deeper. -/
def entryRows (indent : Nat) : List (Atom × Document) → List Row
  | [] => []
  | (key, value) :: rest =>
    .entry indent key value.atom? :: (value.rows (indent + 2) ++ entryRows indent rest)

/--
The rows of a list whose dashes stand at an indentation. A map begins behind its dash and goes on
below its first key, and a list begins below its dash.
-/
def itemRows (indent : Nat) : List Document → List Row
  | [] => []
  | atom value :: rest => .item indent (.atom value) :: itemRows indent rest
  | map [] :: rest => .item indent .empty :: itemRows indent rest
  | map ((key, value) :: more) :: rest =>
    .item indent (.entry key value.atom?) ::
      (value.rows (indent + 4) ++ (entryRows (indent + 2) more ++ itemRows indent rest))
  | list items :: rest => .item indent .empty :: (itemRows (indent + 2) items ++ itemRows indent rest)

end

mutual

/--
Whether a value can be laid out: no map and no list in it is empty, and its keys and its unquoted
texts can be read as they are written.
-/
def isTidy : Document → Bool
  | atom value => value.isTidy
  | map entries => !entries.isEmpty && entriesTidy entries
  | list items => !items.isEmpty && itemsTidy items

/-- Whether the entries of a map can be laid out; every key has one value. -/
def entriesTidy : List (Atom × Document) → Bool
  | [] => true
  | (key, value) :: rest =>
    key.isTidy && !key.text.toList.isEmpty && !(rest.any fun entry => entry.1.text = key.text) &&
      value.isTidy && entriesTidy rest

def itemsTidy : List Document → Bool
  | [] => true
  | value :: rest => value.isTidy && itemsTidy rest

end

theorem isTidy_map {entries : List (Atom × Document)}
    : (map entries).isTidy ↔ entries ≠ [] ∧ entriesTidy entries := by
  simp [isTidy]

theorem isTidy_list {items : List Document}
    : (list items).isTidy ↔ items ≠ [] ∧ itemsTidy items := by
  simp [isTidy]

theorem itemsTidy_cons {value : Document} {rest : List Document}
    : itemsTidy (value :: rest) ↔ value.isTidy ∧ itemsTidy rest := by
  simp [itemsTidy]

theorem entriesTidy_cons {key : Atom} {value : Document} {rest : List (Atom × Document)}
    : entriesTidy ((key, value) :: rest) ↔
      key.isTidy ∧ key.text.toList.isEmpty = false ∧ (∀ entry ∈ rest, entry.1.text ≠ key.text) ∧
        value.isTidy ∧ entriesTidy rest := by
  rw [entriesTidy]
  simp only [Bool.and_eq_true, Bool.not_eq_true', List.any_eq_false, decide_eq_true_eq, and_assoc]

theorem entriesTidy_iff {entries : List (Atom × Document)}
    : entriesTidy entries ↔
      (∀ entry ∈ entries, entry.1.isTidy ∧ entry.1.text.toList.isEmpty = false ∧ entry.2.isTidy) ∧
        (entries.map fun entry => entry.1.text).Nodup := by
  induction entries with
  | nil => simp [entriesTidy]
  | cons entry rest ih =>
    obtain ⟨key, value⟩ := entry
    rw [entriesTidy_cons, ih, List.forall_mem_cons, List.map_cons, List.nodup_cons, List.mem_map]
    constructor
    . rintro ⟨hkey, hne, hnew, hvalue, hrest, hnodup⟩
      refine ⟨⟨⟨hkey, hne, hvalue⟩, hrest⟩, ?_, hnodup⟩
      rintro ⟨other, hmem, hother⟩
      exact hnew other hmem hother
    . rintro ⟨⟨⟨hkey, hne, hvalue⟩, hrest⟩, hnew, hnodup⟩
      refine ⟨hkey, hne, ?_, hvalue, hrest, hnodup⟩
      intro other hmem hother
      exact hnew ⟨other, hmem, hother⟩

theorem itemsTidy_iff {items : List Document} : itemsTidy items ↔ ∀ item ∈ items, item.isTidy := by
  induction items with
  | nil => simp [itemsTidy]
  | cons value rest ih => rw [itemsTidy_cons, ih, List.forall_mem_cons]

theorem itemRows_eq_cons (indent : Nat) (value : Document) (rest : List Document)
    : ∃ body below, itemRows indent (value :: rest) = .item indent body :: below := by
  cases value with
  | atom value => exact ⟨_, _, rfl⟩
  | map entries =>
    cases entries with
    | nil => exact ⟨_, _, rfl⟩
    | cons entry more => exact ⟨_, _, rfl⟩
  | list items => exact ⟨_, _, rfl⟩

theorem itemRows_cons (indent : Nat) (value : Document) (rest : List Document)
    : itemRows indent (value :: rest) = itemRows indent [value] ++ itemRows indent rest := by
  cases value with
  | atom value => rfl
  | map entries =>
    cases entries with
    | nil => rfl
    | cons entry more =>
      simp [itemRows]
  | list items => simp [itemRows]

mutual

theorem le_indent_of_mem_rows {indent : Nat} (value : Document)
    : ∀ row ∈ value.rows indent, indent ≤ row.indent := by
  cases value with
  | atom value =>
    intro row hrow
    cases hrow
  | map entries => exact le_indent_of_mem_entryRows entries
  | list items =>
    intro row hrow
    cases inList_of_mem_itemRows items row hrow with
    | inl hdeeper => exact Nat.le_of_lt hdeeper
    | inr hsame => exact Nat.le_of_eq hsame.1.symm

theorem le_indent_of_mem_entryRows {indent : Nat} (entries : List (Atom × Document))
    : ∀ row ∈ entryRows indent entries, indent ≤ row.indent := by
  cases entries with
  | nil =>
    intro row hrow
    cases hrow
  | cons entry rest =>
    obtain ⟨key, value⟩ := entry
    intro row hrow
    unfold entryRows at hrow
    rw [List.mem_cons, List.mem_append] at hrow
    obtain hfirst | hbelow | hrest := hrow
    . rw [hfirst]
      exact Nat.le_refl indent
    . have := le_indent_of_mem_rows value row hbelow
      omega
    . exact le_indent_of_mem_entryRows rest row hrest

theorem inList_of_mem_itemRows {indent : Nat} (items : List Document)
    : ∀ row ∈ itemRows indent items,
        indent < row.indent ∨ row.indent = indent ∧ row.token.isItem := by
  cases items with
  | nil =>
    intro row hrow
    cases hrow
  | cons value rest =>
    have hrest : ∀ row ∈ itemRows indent rest,
        indent < row.indent ∨ row.indent = indent ∧ row.token.isItem := inList_of_mem_itemRows rest
    intro row hrow
    cases value with
    | atom value =>
      unfold itemRows at hrow
      cases hrow with
      | head => exact .inr ⟨rfl, rfl⟩
      | tail _ hmem => exact hrest row hmem
    | map entries =>
      cases entries with
      | nil =>
        unfold itemRows at hrow
        cases hrow with
        | head => exact .inr ⟨rfl, rfl⟩
        | tail _ hmem => exact hrest row hmem
      | cons entry more =>
        obtain ⟨key, value⟩ := entry
        unfold itemRows at hrow
        rw [List.mem_cons, List.mem_append, List.mem_append] at hrow
        obtain hfirst | hbelow | hmore | hmem := hrow
        . rw [hfirst]
          exact .inr ⟨rfl, rfl⟩
        . have := le_indent_of_mem_rows value row hbelow
          omega
        . have := le_indent_of_mem_entryRows more row hmore
          omega
        . exact hrest row hmem
    | list items =>
      unfold itemRows at hrow
      rw [List.mem_cons, List.mem_append] at hrow
      obtain hfirst | hbelow | hmem := hrow
      . rw [hfirst]
        exact .inr ⟨rfl, rfl⟩
      . have := inList_of_mem_itemRows items row hbelow
        omega
      . exact hrest row hmem

end

theorem isTidyEntry_of_entriesTidy {key : Atom} {value : Document}
    {rest : List (Atom × Document)} (h : entriesTidy ((key, value) :: rest))
    : isTidyEntry key value.atom? := by
  obtain ⟨hkey, hne, _, hvalue, _⟩ := entriesTidy_cons.mp h
  refine isTidyEntry_iff.mpr ⟨hkey, hne, ?_⟩
  intro atom hatom
  cases value with
  | atom value =>
    cases hatom
    exact hvalue
  | map entries => cases hatom
  | list items => cases hatom

mutual

theorem isTidy_of_mem_rows {indent : Nat} (value : Document) (h : value.isTidy)
    : ∀ row ∈ value.rows indent, row.isTidy := by
  cases value with
  | atom value =>
    intro row hrow
    cases hrow
  | map entries =>
    exact isTidy_of_mem_entryRows entries (isTidy_map.mp h).2
  | list items =>
    exact isTidy_of_mem_itemRows items (isTidy_list.mp h).2

theorem isTidy_of_mem_entryRows {indent : Nat} (entries : List (Atom × Document))
    (h : entriesTidy entries)
    : ∀ row ∈ entryRows indent entries, row.isTidy := by
  cases entries with
  | nil =>
    intro row hrow
    cases hrow
  | cons entry rest =>
    obtain ⟨key, value⟩ := entry
    obtain ⟨_, _, _, hvalue, hrest⟩ := entriesTidy_cons.mp h
    intro row hrow
    unfold entryRows at hrow
    rw [List.mem_cons, List.mem_append] at hrow
    obtain hfirst | hbelow | hmem := hrow
    . rw [hfirst]
      exact isTidyEntry_of_entriesTidy h
    . exact isTidy_of_mem_rows value hvalue row hbelow
    . exact isTidy_of_mem_entryRows rest hrest row hmem

theorem isTidy_of_mem_itemRows {indent : Nat} (items : List Document) (h : itemsTidy items)
    : ∀ row ∈ itemRows indent items, row.isTidy := by
  cases items with
  | nil =>
    intro row hrow
    cases hrow
  | cons value rest =>
    obtain ⟨hvalue, htidy⟩ := itemsTidy_cons.mp h
    have hrest : ∀ row ∈ itemRows indent rest, row.isTidy := isTidy_of_mem_itemRows rest htidy
    intro row hrow
    cases value with
    | atom value =>
      unfold itemRows at hrow
      cases hrow with
      | head => exact hvalue
      | tail _ hmem => exact hrest row hmem
    | map entries =>
      have hentries := (isTidy_map.mp hvalue).2
      cases entries with
      | nil => exact absurd rfl (isTidy_map.mp hvalue).1
      | cons entry more =>
        obtain ⟨key, value⟩ := entry
        obtain ⟨_, _, _, hfirst, htidy⟩ := entriesTidy_cons.mp hentries
        unfold itemRows at hrow
        rw [List.mem_cons, List.mem_append, List.mem_append] at hrow
        obtain hrow | hbelow | hmore | hmem := hrow
        . rw [hrow]
          exact isTidyEntry_of_entriesTidy hentries
        . exact isTidy_of_mem_rows value hfirst row hbelow
        . exact isTidy_of_mem_entryRows more htidy row hmore
        . exact hrest row hmem
    | list items =>
      unfold itemRows at hrow
      rw [List.mem_cons, List.mem_append] at hrow
      obtain hfirst | hbelow | hmem := hrow
      . rw [hfirst]
        rfl
      . exact isTidy_of_mem_itemRows items (isTidy_list.mp hvalue).2 row hbelow
      . exact hrest row hmem

end

theorem keys_entriesToJson (entries : List (Atom × Document))
    : (entriesToJson entries).keys = entries.map fun entry => entry.1.text := by
  induction entries with
  | nil => rfl
  | cons entry rest ih =>
    obtain ⟨key, value⟩ := entry
    unfold Json.Fields.keys at *
    rw [entriesToJson, List.map_cons, List.map_cons, ih]

theorem nodup_keys {entries : List (Atom × Document)} (h : entriesTidy entries)
    : (entriesToJson entries).keys.Nodup := by
  rw [keys_entriesToJson]
  exact (entriesTidy_iff.mp h).2

end Document

end Runbook.Source
