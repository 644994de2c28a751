import Mathlib.Order.Iterate
import Runbook.Proofs.Source.Insertion
import Runbook.Proofs.Source.Order

/-!
This module contains what the numbers of lines mean for the tree that is built from them: nothing
but the positions in it. Lines with other numbers are built into the same tree, and the same is
reported of them, except that a hint may name another line.
-/

namespace Runbook

/-- New numbers for the lines of a text, which stay in their order. -/
structure Renumbering where
  number : Nat → Nat
  strictMono : StrictMono number
  /-- A position before the first line counts as the first one under both numbers. -/
  first : ∀ n, max 1 (number n) = number (max 1 n)

namespace Renumbering

def refl : Renumbering :=
  ⟨id, strictMono_id, fun _ => rfl⟩

def insertion (inserted : Nat) (h : 2 ≤ inserted) (count : Nat) : Renumbering where
  number := (Source.movedNumber inserted)^[count]
  strictMono := by
    apply StrictMono.iterate
    intro m n hlt
    unfold Source.movedNumber
    split <;> split <;> omega
  first n := by
    induction count generalizing n with
    | zero => rfl
    | succ count ih =>
      have hmoved : max 1 (Source.movedNumber inserted n)
          = Source.movedNumber inserted (max 1 n) := by
        unfold Source.movedNumber
        split <;> split <;> omega
      rw [Function.iterate_succ_apply, ih, hmoved, Function.iterate_succ_apply]

end Renumbering

/-- A problem without its hint, on the line that a new numbering gives it. -/
def Diagnostic.bare (f : Renumbering) (d : Diagnostic) : Diagnostic :=
  { d with line := f.number d.line, suggestion := none }

namespace Source

section Renumbered

variable (f : Renumbering)

def Line.renumbered (line : Line) : Line :=
  { line with number := f.number line.number }

def Label.renumbered (label : Label) : Label :=
  { label with line := f.number label.line }

def Place.renumbered (place : Place) : Place :=
  { place with line := f.number place.line }

mutual

def Node.renumbered : Node → Node
  | .empty => .empty
  | .scalar value => .scalar value
  | .map entries => .map (renumberedEntries entries)
  | .list items => .list (renumberedItems items)

def renumberedEntries : List Entry → List Entry
  | [] => []
  | (label, node) :: rest => (label.renumbered f, node.renumbered) :: renumberedEntries rest

def renumberedItems : List Item → List Item
  | [] => []
  | (place, node) :: rest => (place.renumbered f, node.renumbered) :: renumberedItems rest

end

theorem renumberedEntries_eq_map (entries : List Entry)
    : renumberedEntries f entries
        =
      entries.map fun (label, node) => (label.renumbered f, node.renumbered f) := by
  induction entries with
  | nil => rfl
  | cons entry rest ih =>
    unfold renumberedEntries
    rw [ih]
    rfl

mutual

theorem toJson_renumbered (node : Node) : (node.renumbered f).toJson = node.toJson := by
  cases node with
  | empty => rfl
  | scalar value => rfl
  | map entries =>
    unfold Node.renumbered Node.toJson
    rw [entriesToJson_renumbered]
  | list items =>
    unfold Node.renumbered Node.toJson
    rw [itemsToJson_renumbered]

theorem entriesToJson_renumbered (fields : Json.Fields) (entries : List Entry)
    : Node.entriesToJson fields (renumberedEntries f entries)
        =
      Node.entriesToJson fields entries := by
  cases entries with
  | nil => rfl
  | cons entry rest =>
    unfold renumberedEntries Node.entriesToJson
    rw [toJson_renumbered, entriesToJson_renumbered]
    rfl

theorem itemsToJson_renumbered (items : List Item)
    : Node.itemsToJson (renumberedItems f items) = Node.itemsToJson items := by
  cases items with
  | nil => rfl
  | cons item rest =>
    unfold renumberedItems Node.itemsToJson
    rw [toJson_renumbered, itemsToJson_renumbered]

end

section Lines

variable (lines : List Line)

theorem takeWhile_renumbered {p : Line → Bool} (h : ∀ line, p (line.renumbered f) = p line)
    : (lines.map (Line.renumbered f)).takeWhile p
        =
      (lines.takeWhile p).map (Line.renumbered f) := by
  rw [List.takeWhile_map]
  exact congrArg (fun q => (lines.takeWhile q).map _) (funext h)

theorem dropWhile_renumbered {p : Line → Bool} (h : ∀ line, p (line.renumbered f) = p line)
    : (lines.map (Line.renumbered f)).dropWhile p
        =
      (lines.dropWhile p).map (Line.renumbered f) := by
  rw [List.dropWhile_map]
  exact congrArg (fun q => (lines.dropWhile q).map _) (funext h)

theorem pastDeeper_renumbered (indent : Nat)
    : pastDeeper indent (lines.map (Line.renumbered f))
        =
      (pastDeeper indent lines).map (Line.renumbered f) :=
  dropWhile_renumbered f lines fun _ => rfl

theorem startsDeeper_renumbered (indent : Nat)
    : startsDeeper indent (lines.map (Line.renumbered f)) = startsDeeper indent lines := by
  cases lines <;> rfl

theorem startsBlock_renumbered (indent : Nat)
    : startsBlock indent (lines.map (Line.renumbered f)) = startsBlock indent lines := by
  cases lines <;> rfl

theorem continuesMap_renumbered (column : Nat)
    : continuesMap column (lines.map (Line.renumbered f)) = continuesMap column lines := by
  cases lines <;> rfl

theorem block_renumbered
    : block (lines.map (Line.renumbered f)) = (block lines).map (Line.renumbered f) := by
  cases lines with
  | nil => rfl
  | cons line rest =>
    unfold block
    rw [apply_ite (List.map (Line.renumbered f)), ← takeWhile_renumbered f _ fun _ => rfl,
      ← takeWhile_renumbered f _ fun _ => rfl]
    rfl

theorem afterBlock_renumbered
    : afterBlock (lines.map (Line.renumbered f)) = (afterBlock lines).map (Line.renumbered f) := by
  cases lines with
  | nil => rfl
  | cons line rest =>
    unfold afterBlock
    rw [apply_ite (List.map (Line.renumbered f)), ← dropWhile_renumbered f _ fun _ => rfl,
      ← dropWhile_renumbered f _ fun _ => rfl]
    rfl

theorem afterValue_renumbered (indent : Nat) (value : Option Scalar)
    : afterValue indent value (lines.map (Line.renumbered f))
        =
      (afterValue indent value lines).map (Line.renumbered f) := by
  unfold afterValue
  cases value with
  | some scalar => exact pastDeeper_renumbered f lines indent
  | none =>
    dsimp only
    rw [startsBlock_renumbered, afterBlock_renumbered]
    split <;> rfl

theorem moreEntries_renumbered (column : Nat)
    : moreEntries column (lines.map (Line.renumbered f))
        =
      (moreEntries column lines).map (Line.renumbered f) := by
  unfold moreEntries
  rw [continuesMap_renumbered]
  split
  . exact takeWhile_renumbered f lines fun _ => rfl
  . rfl

theorem afterItem_renumbered (indent column : Nat) (body : ItemBody)
    : afterItem indent column body (lines.map (Line.renumbered f))
        =
      (afterItem indent column body lines).map (Line.renumbered f) := by
  unfold afterItem
  cases body with
  | empty =>
    dsimp only
    rw [startsDeeper_renumbered, afterBlock_renumbered]
    split <;> rfl
  | scalar value => exact pastDeeper_renumbered f lines indent
  | entry key value =>
    dsimp only
    rw [afterValue_renumbered, continuesMap_renumbered]
    split
    . exact dropWhile_renumbered f _ fun _ => rfl
    . rfl

end Lines

/-- The result that another one becomes when the lines are given new numbers. -/
structure IsRenumbered {α : Type} (rename : α → α) (before after : Noted α) : Prop where
  value : after.value = rename before.value
  notes : after.notes.map (Diagnostic.bare .refl) = before.notes.map (Diagnostic.bare f)

namespace IsRenumbered

variable {f}

theorem append_notes {α β γ : Type} {rename : α → α} {other : β → β} {both : γ → γ}
    {a b : Noted α} {c d : Noted β} (first : IsRenumbered f rename a b)
    (second : IsRenumbered f other c d) {before after : γ} (hvalue : after = both before)
    : IsRenumbered f both ⟨before, a.notes ++ c.notes⟩ ⟨after, b.notes ++ d.notes⟩ where
  value := hvalue
  notes := by rw [List.map_append, List.map_append, first.notes, second.notes]

theorem bind {α β : Type} {rename : α → α} {other : β → β} {a b : Noted α} {p q : α → Noted β}
    (h : IsRenumbered f rename a b) (hnext : ∀ x, IsRenumbered f other (p x) (q (rename x)))
    : IsRenumbered f other (a >>= p) (b >>= q) := by
  have hvalue := hnext a.value
  rw [← h.value] at hvalue
  exact h.append_notes hvalue hvalue.value

theorem cons_note {α : Type} {rename : α → α} {a b : Noted α} (h : IsRenumbered f rename a b)
    {before after : Diagnostic} (hnote : after.bare .refl = before.bare f)
    : IsRenumbered f rename ⟨a.value, before :: a.notes⟩ ⟨b.value, after :: b.notes⟩ where
  value := h.value
  notes := by rw [List.map_cons, List.map_cons, hnote, h.notes]

end IsRenumbered

theorem withContext_bare (d : Diagnostic) (text : String)
    : (d.withContext text).bare f = (d.bare f).withContext text := by
  unfold Diagnostic.withContext
  split <;> rfl

section Build

variable {f}

theorem error_bare (line column : Nat) (message : String)
    : (Diagnostic.error (f.number line) column message).bare .refl
        =
      (Diagnostic.error line column message).bare f := by
  unfold Diagnostic.error Diagnostic.bare
  dsimp only
  rw [← f.first]
  rfl

theorem report_bare (line column : Nat) (message text : String)
    : ((Diagnostic.error (f.number line) column message).withContext text).bare .refl
        =
      ((Diagnostic.error line column message).withContext text).bare f := by
  rw [withContext_bare, withContext_bare, error_bare]

theorem belowNotes_bare (owner : Line) (indent : Nat) (lines : List Line)
    : (belowNotes (owner.renumbered f) indent (lines.map (Line.renumbered f))).map
          (Diagnostic.bare .refl)
        =
      (belowNotes owner indent lines).map (Diagnostic.bare f) := by
  cases lines with
  | nil => rfl
  | cons line rest =>
    rw [List.map_cons]
    unfold belowNotes
    dsimp only
    by_cases hdeeper : indent < line.indent
    . have hsame : indent < (line.renumbered f).indent := hdeeper
      rw [if_pos hdeeper, if_pos hsame]
      exact congrArg (fun d => [d]) (report_bare ..)
    . have hsame : ¬ indent < (line.renumbered f).indent := hdeeper
      rw [if_neg hdeeper, if_neg hsame]
      rfl

mutual

theorem buildBlock_renumbered (lines : List Line)
    : IsRenumbered f (Node.renumbered f) (buildBlock lines)
        (buildBlock (lines.map (Line.renumbered f))) := by
  cases lines with
  | nil =>
    unfold buildBlock
    exact ⟨rfl, rfl⟩
  | cons line rest =>
    have hitems := buildItems_renumbered line.indent (line :: rest)
    have hentries := buildEntries_renumbered line.indent (line :: rest)
    rw [List.map_cons] at hitems hentries ⊢
    unfold buildBlock
    dsimp only
    by_cases hitem : line.token.isItem
    . have hsame : (line.renumbered f).token.isItem := hitem
      rw [if_pos hitem, if_pos hsame]
      exact ⟨congrArg Node.list hitems.value, hitems.notes⟩
    . have hsame : ¬ (line.renumbered f).token.isItem := hitem
      rw [if_neg hitem, if_neg hsame]
      exact ⟨congrArg Node.map hentries.value, hentries.notes⟩
termination_by 4 * lines.length + 1

theorem buildValue_renumbered (indent : Nat) (owner : Line) (value : Option Scalar)
    (lines : List Line)
    : IsRenumbered f (Node.renumbered f) (buildValue indent owner value lines)
        (buildValue indent (owner.renumbered f) value (lines.map (Line.renumbered f))) := by
  unfold buildValue
  cases value with
  | some scalar => exact ⟨rfl, belowNotes_bare owner indent lines⟩
  | none =>
    have hblock := buildBlock_renumbered (block lines)
    dsimp only
    rw [startsBlock_renumbered, block_renumbered]
    split
    . exact hblock
    . exact ⟨rfl, rfl⟩
termination_by 4 * lines.length + 2
decreasing_by
  have := length_block_le lines
  omega

theorem buildEntries_renumbered (indent : Nat) (lines : List Line)
    : IsRenumbered f (renumberedEntries f) (buildEntries indent lines)
        (buildEntries indent (lines.map (Line.renumbered f))) := by
  cases lines with
  | nil =>
    unfold buildEntries
    exact ⟨rfl, rfl⟩
  | cons line rest =>
    have hskip := buildEntries_renumbered indent (pastDeeper indent rest)
    have hnext := buildEntries_renumbered indent rest
    have hentry (value : Option Scalar) (label : Label)
        : let node := buildValue indent line value rest
          let more := buildEntries indent (afterValue indent value rest)
          let moved := buildValue indent (line.renumbered f) value (rest.map (Line.renumbered f))
          let later := buildEntries indent
            ((afterValue indent value rest).map (Line.renumbered f))
          IsRenumbered f (renumberedEntries f)
            ⟨(label, node.value) :: more.value, node.notes ++ more.notes⟩
            ⟨(label.renumbered f, moved.value) :: later.value, moved.notes ++ later.notes⟩ := by
      intro node more moved later
      have hmore := buildEntries_renumbered indent (afterValue indent value rest)
      have hvalue := buildValue_renumbered indent line value rest
      apply hvalue.append_notes hmore
      rw [hvalue.value, hmore.value]
      rfl
    rw [List.map_cons]
    unfold buildEntries
    by_cases hdeeper : indent < line.indent
    . have hsame : indent < (line.renumbered f).indent := hdeeper
      rw [if_pos hdeeper, if_pos hsame, pastDeeper_renumbered]
      exact hskip.cons_note (report_bare ..)
    . have hsame : ¬ indent < (line.renumbered f).indent := hdeeper
      have htoken : (line.renumbered f).token = line.token := rfl
      rw [if_neg hdeeper, if_neg hsame, htoken]
      cases line.token with
      | entry key value =>
        dsimp only
        rw [afterValue_renumbered]
        exact hentry value _
      | step id kind provider =>
        dsimp only
        rw [afterValue_renumbered]
        exact hentry none _
      | item column body =>
        dsimp only
        rw [pastDeeper_renumbered]
        exact hskip.cons_note (report_bare ..)
      | text text =>
        dsimp only
        rw [pastDeeper_renumbered]
        exact hskip.cons_note (report_bare ..)
      | directive name args => exact hnext.cons_note (report_bare ..)
termination_by 4 * lines.length
decreasing_by
  all_goals
    have := length_pastDeeper_le indent rest
    have := fun value => length_afterValue_le indent value rest
    grind

theorem buildItem_renumbered (indent column : Nat) (line : Line) (body : ItemBody)
    (lines : List Line)
    : IsRenumbered f (Node.renumbered f) (buildItem indent column line body lines)
        (buildItem indent column (line.renumbered f) body (lines.map (Line.renumbered f))) := by
  unfold buildItem
  cases body with
  | empty =>
    have hblock := buildBlock_renumbered (block lines)
    dsimp only
    rw [startsDeeper_renumbered, block_renumbered]
    split
    . exact hblock
    . exact ⟨rfl, rfl⟩
  | scalar value => exact ⟨rfl, belowNotes_bare line indent lines⟩
  | entry key value =>
    have hvalue := buildValue_renumbered column line value lines
    have hmore := buildEntries_renumbered column
      (moreEntries column (afterValue column value lines))
    dsimp only
    rw [afterValue_renumbered, moreEntries_renumbered]
    apply hvalue.append_notes hmore
    rw [hvalue.value, hmore.value]
    rfl
termination_by 4 * lines.length + 3
decreasing_by
  all_goals
    have := length_block_le lines
    have := fun value => length_afterValue_le column value lines
    have := length_moreEntries_le column
    grind

theorem buildItems_renumbered (indent : Nat) (lines : List Line)
    : IsRenumbered f (renumberedItems f) (buildItems indent lines)
        (buildItems indent (lines.map (Line.renumbered f))) := by
  cases lines with
  | nil =>
    unfold buildItems
    exact ⟨rfl, rfl⟩
  | cons line rest =>
    have hskip := buildItems_renumbered indent (pastDeeper indent rest)
    rw [List.map_cons]
    unfold buildItems
    by_cases hdeeper : indent < line.indent
    . have hsame : indent < (line.renumbered f).indent := hdeeper
      rw [if_pos hdeeper, if_pos hsame, pastDeeper_renumbered]
      exact hskip.cons_note (report_bare ..)
    . have hsame : ¬ indent < (line.renumbered f).indent := hdeeper
      have htoken : (line.renumbered f).token = line.token := rfl
      rw [if_neg hdeeper, if_neg hsame, htoken]
      cases line.token with
      | item column body =>
        have hitem := buildItem_renumbered indent column line body rest
        have hmore := buildItems_renumbered indent (afterItem indent column body rest)
        dsimp only
        rw [afterItem_renumbered]
        apply hitem.append_notes hmore
        rw [hitem.value, hmore.value]
        rfl
      | directive name args => exact ⟨rfl, rfl⟩
      | entry key value => exact ⟨rfl, rfl⟩
      | step id kind provider => exact ⟨rfl, rfl⟩
      | text text => exact ⟨rfl, rfl⟩
termination_by 4 * lines.length
decreasing_by
  all_goals
    have := length_pastDeeper_le indent rest
    have := fun column body => length_afterItem_le indent column body rest
    grind

end

end Build

end Renumbered

/-- Lines that move down are read the same, with new numbers. -/
theorem linesAt_insertion {inserted number : Nat} (h : 2 ≤ inserted) (hle : inserted ≤ number)
    (count : Nat) (text : List Char)
    : IsRenumbered (.insertion inserted h count)
        (List.map (Line.renumbered (.insertion inserted h count)))
        (linesAt number text) (linesAt (number + count) text) := by
  induction count with
  | zero => exact ⟨(List.map_id _).symm, rfl⟩
  | succ count ih =>
    have hmoved
        : linesAt (number + count + 1) text = (linesAt (number + count) text).moved inserted :=
      readLines_succ (Nat.le_add_right_of_le hle) (by omega) 0 _
    have hnumber (n : Nat) : movedNumber inserted ((movedNumber inserted)^[count] n)
        = (movedNumber inserted)^[count + 1] n :=
      (Function.iterate_succ_apply' ..).symm
    have hlines (lines : List Line)
        : (lines.map (Line.renumbered (.insertion inserted h count))).map (Line.moved inserted)
            =
          lines.map (Line.renumbered (.insertion inserted h (count + 1))) := by
      rw [List.map_map]
      apply List.map_congr_left
      intro line _
      exact congrArg (fun n => { line with number := n }) (hnumber line.number)
    have hnotes (notes : List Diagnostic)
        : (notes.map (Diagnostic.bare (.insertion inserted h count))).map (Diagnostic.moved inserted)
            =
          notes.map (Diagnostic.bare (.insertion inserted h (count + 1))) := by
      rw [List.map_map]
      apply List.map_congr_left
      intro d _
      exact congrArg (fun n => { d with line := n, suggestion := none }) (hnumber d.line)
    rw [← Nat.add_assoc, hmoved]
    constructor
    . rw [← hlines, ← ih.value]
      rfl
    . rw [← hnotes, ← ih.notes]
      unfold Noted.moved
      rw [List.map_map, List.map_map]
      rfl

end Source

end Runbook
