import Runbook.Proofs.Errors
import Runbook.Source.Tree

/-!
This module contains the order in which the parts of a tree stand in their text: what is built from
lines stands on these lines, each part on a later line than the one before it. Maps without entries
are left over only from lines that were reported.
-/

namespace Runbook.Source

theorem eq_item_of_isItem {token : Token} (h : token.isItem)
    : ∃ column body, token = .item column body := by
  cases token with
  | item column body => exact ⟨column, body, rfl⟩
  | directive name args => cases h
  | entry key value => cases h
  | step id kind provider => cases h
  | text text => cases h

/-- Induction over lines where any end of the lines after the first one may come next. -/
theorem lines_induction {P : List Line → Prop} (nil : P [])
    (cons : ∀ line rest, (∀ later, later <:+ rest → P later) → P (line :: rest)) (lines : List Line)
    : P lines := by
  have hall : ∀ later, later <:+ lines → P later := by
    induction lines with
    | nil =>
      intro later hlater
      rw [List.suffix_nil.mp hlater]
      exact nil
    | cons line rest ih =>
      intro later hlater
      rw [List.suffix_cons_iff] at hlater
      cases hlater with
      | inl hwhole =>
        rw [hwhole]
        exact cons line rest ih
      | inr hrest => exact ih later hrest
  exact hall lines (List.suffix_refl lines)

theorem pastDeeper_suffix (indent : Nat) (lines : List Line) : pastDeeper indent lines <:+ lines :=
  List.dropWhile_suffix _

theorem afterBlock_suffix (lines : List Line) : afterBlock lines <:+ lines :=
  ⟨block lines, block_append_afterBlock lines⟩

theorem afterValue_suffix (indent : Nat) (value : Option Scalar) (lines : List Line)
    : afterValue indent value lines <:+ lines := by
  unfold afterValue
  split
  . exact pastDeeper_suffix indent lines
  . split
    . exact afterBlock_suffix lines
    . exact List.suffix_refl lines

theorem afterItem_suffix (indent column : Nat) (body : ItemBody) (lines : List Line)
    : afterItem indent column body lines <:+ lines := by
  unfold afterItem
  split
  . split
    . exact afterBlock_suffix lines
    . exact List.suffix_refl lines
  . exact pastDeeper_suffix indent lines
  . dsimp only
    split
    . exact (List.dropWhile_suffix _).trans (afterValue_suffix column _ lines)
    . exact afterValue_suffix column _ lines

def numbers (lines : List Line) : List Nat :=
  lines.map Line.number

theorem numbers_sublist {later lines : List Line} (h : later <:+ lines)
    : (numbers later).Sublist (numbers lines) :=
  h.sublist.map _

def entryPlaces (entries : List Entry) : List Nat :=
  entries.map fun entry => entry.1.line

def itemPlaces (items : List Item) : List Nat :=
  items.map fun item => item.1.line

def Node.places : Node → List Nat
  | map entries => entryPlaces entries
  | list items => itemPlaces items
  | _ => []

def treePlaces (entries : List Entry) : List Nat :=
  entries.flatMap fun entry => entry.1.line :: entry.2.places

theorem places_buildEntries (indent : Nat) (lines : List Line)
    : (entryPlaces (buildEntries indent lines).value).Sublist (numbers lines) := by
  induction lines using lines_induction with
  | nil =>
    unfold buildEntries
    exact .slnil
  | cons line rest ih =>
    have hskip := (ih _ (pastDeeper_suffix indent rest)).trans
      (numbers_sublist (pastDeeper_suffix indent rest))
    have hnext (value : Option Scalar) := (ih _ (afterValue_suffix indent value rest)).trans
      (numbers_sublist (afterValue_suffix indent value rest))
    unfold buildEntries
    split
    . exact hskip.cons line.number
    . split
      . exact (hnext _).cons_cons line.number
      . exact (hnext _).cons_cons line.number
      . exact hskip.cons line.number
      . exact hskip.cons line.number
      . exact (ih rest (List.suffix_refl rest)).cons line.number

theorem places_buildItems (indent : Nat) (lines : List Line)
    : (itemPlaces (buildItems indent lines).value).Sublist (numbers lines) := by
  induction lines using lines_induction with
  | nil =>
    unfold buildItems
    exact .slnil
  | cons line rest ih =>
    have hskip := (ih _ (pastDeeper_suffix indent rest)).trans
      (numbers_sublist (pastDeeper_suffix indent rest))
    have hnext (column : Nat) (body : ItemBody) := (ih _ (afterItem_suffix indent column body rest)).trans
      (numbers_sublist (afterItem_suffix indent column body rest))
    unfold buildItems
    split
    . exact hskip.cons line.number
    . split
      . exact (hnext _ _).cons_cons line.number
      . exact List.nil_sublist _

theorem places_buildBlock (lines : List Line)
    : (buildBlock lines).value.places.Sublist (numbers lines) := by
  unfold buildBlock
  split
  . exact .slnil
  . split
    . exact places_buildItems _ _
    . exact places_buildEntries _ _

theorem places_buildValue (indent : Nat) (owner : Line) (value : Option Scalar) (lines : List Line)
    : ((buildValue indent owner value lines).value.places ++
        numbers (afterValue indent value lines)).Sublist (numbers lines) := by
  unfold buildValue afterValue
  split
  . exact numbers_sublist (pastDeeper_suffix indent lines)
  . split
    . have happend := congrArg numbers (block_append_afterBlock lines)
      unfold numbers at happend ⊢
      rw [List.map_append] at happend
      rw [← happend]
      exact (places_buildBlock (block lines)).append (List.Sublist.refl _)
    . exact List.Sublist.refl _

theorem treePlaces_buildEntries (indent : Nat) (lines : List Line)
    : (treePlaces (buildEntries indent lines).value).Sublist (numbers lines) := by
  induction lines using lines_induction with
  | nil =>
    unfold buildEntries
    exact .slnil
  | cons line rest ih =>
    have hskip := (ih _ (pastDeeper_suffix indent rest)).trans
      (numbers_sublist (pastDeeper_suffix indent rest))
    have hnext (value : Option Scalar) (label : Label) (hlabel : label.line = line.number)
        : (treePlaces ((label, (buildValue indent line value rest).value) ::
            (buildEntries indent (afterValue indent value rest)).value)).Sublist
          (numbers (line :: rest)) := by
      -- the value takes the first of the lines and the entries after it the others
      have hvalue := places_buildValue indent line value rest
      have hmore := ih _ (afterValue_suffix indent value rest)
      unfold treePlaces at hmore ⊢
      rw [List.flatMap_cons, List.cons_append, hlabel]
      exact (((List.Sublist.refl _).append hmore).trans hvalue).cons_cons line.number
    unfold buildEntries
    split
    . exact hskip.cons line.number
    . split
      . exact hnext _ _ rfl
      . exact hnext _ _ rfl
      . exact hskip.cons line.number
      . exact hskip.cons line.number
      . exact (ih rest (List.suffix_refl rest)).cons line.number

theorem treePlaces_buildTree (lines : List Line)
    : (treePlaces (buildTree lines).value).Sublist (numbers lines) := by
  induction lines using lines_induction with
  | nil =>
    unfold buildTree
    exact .slnil
  | cons line rest ih =>
    have hafter (later : List Line) (h : later <:+ rest) :=
      ((ih later h).trans (numbers_sublist h)).cons line.number
    unfold buildTree
    split
    . exact hafter _ (pastDeeper_suffix 0 rest)
    . split
      . exact hafter _ (List.dropWhile_suffix _)
      . exact treePlaces_buildEntries 0 (line :: rest)

def Node.isFilled : Node → Bool
  | map entries => !entries.isEmpty
  | _ => true

theorem buildEntries_ne_nil {indent : Nat} {line : Line} {rest : List Line}
    (h : errorsAmong (buildEntries indent (line :: rest)).notes = [])
    : (buildEntries indent (line :: rest)).value ≠ [] := by
  revert h
  unfold buildEntries
  split
  . simp [Line.unexpected]
  . split
    . intro _
      exact List.cons_ne_nil _ _
    . intro _
      exact List.cons_ne_nil _ _
    . simp [Line.strayItem]
    . simp [Line.strayText]
    . simp [Line.strayDirective]

theorem isFilled_buildBlock {lines : List Line} (h : errorsAmong (buildBlock lines).notes = [])
    : (buildBlock lines).value.isFilled := by
  revert h
  unfold buildBlock
  split
  . intro _
    rfl
  . split
    . intro _
      rfl
    . intro h
      simpa [Node.isFilled] using buildEntries_ne_nil h

theorem isFilled_buildValue {indent : Nat} {owner : Line} {value : Option Scalar} {lines : List Line}
    (h : errorsAmong (buildValue indent owner value lines).notes = [])
    : (buildValue indent owner value lines).value.isFilled := by
  revert h
  unfold buildValue
  split
  . intro _
    rfl
  . split
    . exact isFilled_buildBlock
    . intro _
      rfl

theorem isFilled_buildEntries {indent : Nat} {lines : List Line}
    (h : errorsAmong (buildEntries indent lines).notes = [])
    : ∀ entry ∈ (buildEntries indent lines).value, entry.2.isFilled := by
  induction lines using lines_induction with
  | nil =>
    unfold buildEntries
    intro entry hentry
    cases hentry
  | cons line rest ih =>
    revert h
    unfold buildEntries
    split
    . simp [Line.unexpected]
    . split
      . next value _ =>
        rw [errorsAmong_append, List.append_eq_nil_iff, List.forall_mem_cons]
        rintro ⟨hvalue, hmore⟩
        exact ⟨isFilled_buildValue hvalue, ih _ (afterValue_suffix indent value rest) hmore⟩
      . rw [errorsAmong_append, List.append_eq_nil_iff, List.forall_mem_cons]
        rintro ⟨hvalue, hmore⟩
        exact ⟨isFilled_buildValue hvalue, ih _ (afterValue_suffix indent none rest) hmore⟩
      . simp [Line.strayItem]
      . simp [Line.strayText]
      . simp [Line.strayDirective]

theorem isFilled_buildTree {lines : List Line} (h : errorsAmong (buildTree lines).notes = [])
    : ∀ entry ∈ (buildTree lines).value, entry.2.isFilled := by
  induction lines using lines_induction with
  | nil =>
    unfold buildTree
    intro entry hentry
    cases hentry
  | cons line rest ih =>
    revert h
    unfold buildTree
    split
    . simp [Line.unexpected]
    . split
      . rw [errorsAmong_append, List.append_eq_nil_iff]
        rintro ⟨_, hmore⟩
        exact ih _ (List.dropWhile_suffix _) hmore
      . exact isFilled_buildEntries

end Runbook.Source
