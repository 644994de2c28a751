import Mathlib.Data.List.TakeWhile
import Runbook.Proofs.Source.Numbering
import Runbook.Proofs.Source.Row

/-!
This module contains lists as they are written between brackets. What stands between the brackets is
read as the items that it is written as; what stands behind the closing bracket is not looked at.
-/

namespace Runbook.Source

open Text

def beginsPlain (c : Char) : Bool :=
  !(isGap c || c = ',') && c ≠ ']' && c ≠ '"' && c ≠ '\''

theorem beginsPlain_iff {c : Char}
    : beginsPlain c ↔ ¬(isGap c || c = ',') ∧ c ≠ ']' ∧ ¬(c = '"' ∨ c = '\'') := by
  simp [beginsPlain, and_assoc]

/-- How items are written between the brackets of a list, with blanks and commas around them. -/
inductive Lists : List Atom → List Char → Prop where
  | nil : Lists [] []
  | separator {items : List Atom} {c : Char} {rest : List Char} (hc : isGap c || c = ',')
      (hrest : Lists items rest) : Lists items (c :: rest)
  /-- The text behind the opening quote, down to the closing one. -/
  | quoted {items : List Atom} {quote : Char} {written rest text : List Char}
      (hquote : quote = '"' ∨ quote = '\'') (hwritten : closeQuote? quote written = some (text, []))
      (hrest : Lists items rest)
      : Lists (.quoted (String.ofList text) :: items) (quote :: (written ++ rest))
  /-- The text down to the next comma. -/
  | plain {items : List Atom} {c : Char} {word rest : List Char} (hc : beginsPlain c)
      (hword : ∀ d ∈ word, !endsItem d) (hnext : ∀ d ∈ rest.head?, endsItem d)
      (hrest : Lists items rest)
      : Lists (.plain (String.ofList (trim (c :: word))) :: items) (c :: (word ++ rest))

section Step

variable {c : Char} (cs : List Char)

theorem listItems_separator (h : isGap c || c = ',') : listItems (c :: cs) = listItems cs := by
  rw [listItems, if_pos h]

theorem listItems_close : listItems (']' :: cs) = ([], .closed cs) := by
  rw [listItems, if_neg (by decide), if_pos rfl]

theorem listItems_quoted (hquote : c = '"' ∨ c = '\'') {text rest : List Char}
    (h : closeQuote? c cs = some (text, rest))
    : listItems (c :: cs)
        =
      (.quoted (String.ofList text) :: (listItems rest).1, (listItems rest).2) := by
  have hnot : ¬(isGap c || c = ',') ∧ c ≠ ']' := by
    rcases hquote with rfl | rfl <;> decide
  rw [listItems, if_neg hnot.1, if_neg hnot.2, if_pos hquote]
  split
  . next hnone =>
    rw [h] at hnone
    cases hnone
  . next other after hsome =>
    rw [h] at hsome
    cases hsome
    rfl

theorem listItems_plain (h : beginsPlain c)
    : let rest := cs.dropWhile (!endsItem ·)
      listItems (c :: cs)
        =
      (.plain (String.ofList (trim (c :: cs.takeWhile (!endsItem ·)))) :: (listItems rest).1,
        (listItems rest).2) := by
  obtain ⟨hseparates, hclose, hquote⟩ := beginsPlain_iff.mp h
  rw [listItems, if_neg hseparates, if_neg hclose, if_neg hquote]

end Step

theorem span_word {word below : List Char} (hword : ∀ d ∈ word, !endsItem d)
    (hbelow : ∀ d ∈ below.head?, endsItem d)
    : (word ++ below).takeWhile (!endsItem ·) = word ∧
      (word ++ below).dropWhile (!endsItem ·) = below := by
  rw [List.takeWhile_append_of_pos hword, List.dropWhile_append_of_pos hword]
  cases below with
  | nil => exact ⟨List.append_nil word, rfl⟩
  | cons d ds => simp [hbelow d rfl]

theorem Lists.listItems {items : List Atom} {inner : List Char} (h : Lists items inner)
    (rest : List Char)
    : listItems (inner ++ ']' :: rest) = (items, .closed rest) := by
  induction h with
  | nil => exact listItems_close rest
  | separator hc _ ih => rw [List.cons_append, listItems_separator _ hc, ih]
  | @quoted items quote written below text hquote hwritten _ ih =>
    obtain ⟨w, hw, hread⟩ := closeQuote?_split hwritten
    rw [List.append_nil] at hw
    have hclose : closeQuote? quote (written ++ (below ++ ']' :: rest))
        = some (text, below ++ ']' :: rest) := by
      rw [hw, hread]
    rw [List.cons_append, List.append_assoc, listItems_quoted _ hquote hclose, ih]
  | @plain items c word below hc hword hnext _ ih =>
    have hends : ∀ d ∈ (below ++ ']' :: rest).head?, endsItem d := by
      cases below with
      | nil =>
        rintro _ ⟨⟩
        rfl
      | cons d ds => exact hnext
    obtain ⟨htake, hdrop⟩ := span_word hword hends
    have hplain := listItems_plain (word ++ (below ++ ']' :: rest)) hc
    dsimp only at hplain
    rw [htake, hdrop, ih] at hplain
    rw [List.cons_append, List.append_assoc]
    exact hplain

theorem lists_of_listItems {text after : List Char} (h : (listItems text).2 = .closed after)
    : ∃ inner, text = inner ++ ']' :: after ∧ Lists (listItems text).1 inner := by
  fun_induction listItems text with
  | case1 => cases h
  | case2 c cs hc ih =>
    obtain ⟨inner, rfl, hinner⟩ := ih h
    exact ⟨c :: inner, rfl, .separator hc hinner⟩
  | case3 =>
    cases h
    exact ⟨[], rfl, .nil⟩
  | case4 => cases h
  | case5 c cs hgap hclose hquote text rest hread _ items last hitems ih =>
    rw [hitems] at ih
    obtain ⟨inner, hrest, hinner⟩ := ih h
    obtain ⟨written, rfl, hwritten⟩ := closeQuote?_split hread
    have htext := hwritten []
    rw [List.append_nil] at htext
    refine ⟨c :: (written ++ inner), ?_, .quoted hquote htext hinner⟩
    rw [hrest, List.cons_append, List.append_assoc]
  | case6 c cs hgap hclose hquote _ items last hitems ih =>
    rw [hitems] at ih
    obtain ⟨inner, hrest, hinner⟩ := ih h
    have hc : beginsPlain c := beginsPlain_iff.mpr ⟨hgap, hclose, hquote⟩
    have hword : ∀ d ∈ cs.takeWhile (!endsItem ·), !endsItem d :=
      fun d hd => List.mem_takeWhile_imp (p := (!endsItem ·)) hd
    have hnext : ∀ d ∈ inner.head?, endsItem d := by
      intro d hd
      obtain ⟨ds, rfl⟩ := List.head?_eq_some_iff.mp hd
      have hhead := List.head?_dropWhile_not (!endsItem ·) cs
      rw [hrest] at hhead
      simpa using hhead
    refine ⟨c :: (cs.takeWhile (!endsItem ·) ++ inner), ?_, .plain hc hword hnext hinner⟩
    rw [List.cons_append, List.append_assoc, ← hrest, List.takeWhile_append_dropWhile]

/-- The closing bracket is the first one that is not within a quoted item. -/
theorem listItems_closed_iff {text after : List Char} {items : List Atom}
    : listItems text = (items, .closed after) ↔
        ∃ inner, text = inner ++ ']' :: after ∧ Lists items inner := by
  constructor
  . intro h
    have hlists := lists_of_listItems (congrArg Prod.snd h)
    rw [h] at hlists
    exact hlists
  . rintro ⟨inner, rfl, hinner⟩
    exact hinner.listItems after

theorem listValue_notes_eq_nil_iff (site : Site) (column : Nat) {text : List Char}
    : (listValue site column text).notes = [] ↔ ∃ after, (listItems text).2 = .closed after := by
  unfold listValue
  dsimp only
  split
  . next after h => exact iff_of_true rfl ⟨after, h⟩
  . next h => simp [h]
  . next h => simp [h]

theorem tabNotes_eq_nil_iff (site : Site) {leading : List Char}
    : tabNotes site leading = [] ↔ '\t' ∉ leading := by
  unfold tabNotes
  split <;> simp_all

theorem readValue_bracket (site : Site) (following : RawLines) (text : List Char)
    (column owner : Nat)
    : readValue site following ('[' :: text) column owner
        =
      ⟨⟨.list (listItems text).1, 0⟩, (listValue site column text).notes⟩ := by
  obtain ⟨bare, hbare⟩ := stripComment_cons (c := '[') rfl (by decide) text
  unfold readValue
  dsimp only
  rw [hbare, if_neg (by simp)]
  simp [bind, pure, listValue]

section Value

variable {raw text : List Char} {slot : Slot} (hslot : slot? raw = some slot)
  (htext : slot.text = '[' :: text)
include hslot htext

theorem readLine_of_bracket (number : Nat) (following : RawLines)
    : let site : Site := ⟨number, raw⟩
      readLine number raw following
        =
      ⟨⟨some ⟨number, leadingBlanks raw, slot.fill (.list (listItems text).1), String.ofList raw⟩,
          0⟩,
        tabNotes site (leading raw) ++ (listValue site (slot.column raw) text).notes⟩ := by
  intro site
  rw [readLine_of_slot? hslot, htext, readValue_bracket]

theorem readLine_notes_eq_nil_iff (number : Nat) (following : RawLines)
    : (readLine number raw following).notes = [] ↔
        '\t' ∉ leading raw ∧ ∃ after, (listItems text).2 = .closed after := by
  rw [readLine_of_bracket hslot htext, List.append_eq_nil_iff, tabNotes_eq_nil_iff,
    listValue_notes_eq_nil_iff]

end Value

theorem readLine_bracketSource {key : Atom} (hkey : key.isTidy) (hname : key.text ≠ "")
    (indent : Nat) {items : List Atom} {inner : List Char} (hinner : Lists items inner)
    (after : List Char) (number : Nat) (following : RawLines)
    : let raw := indented indent (key.source ++ ':' :: ' ' :: '[' :: (inner ++ ']' :: after))
      readLine number raw following
        =
      ⟨⟨some ⟨number, indent, .entry key.text (some (.list items)), String.ofList raw⟩, 0⟩, []⟩ := by
  intro raw
  obtain ⟨bare, hbare⟩ := stripComment_cons (c := '[') rfl (by decide) (inner ++ ']' :: after)
  have hfirst : ∀ c ∈ ('[' :: (inner ++ ']' :: after)).head?, isBlank c = false := by
    rintro _ ⟨⟩
    rfl
  have hslot := slot?_keySource hkey hname indent hfirst (by rw [hbare]; rfl)
  have hleading : leading raw = List.replicate indent ' ' :=
    leading_indented (not_isBlank_keySource hkey _) indent
  have hindent : leadingBlanks raw = indent :=
    (congrArg List.length hleading).trans List.length_replicate
  have hlist := hinner.listItems after
  rw [readLine_of_bracket hslot rfl, hlist, hleading, hindent, tabNotes_replicate]
  unfold listValue
  rw [hlist]
  rfl

/--
A list that nothing is reported for is all that is written between its brackets, of which the second
is the first one outside of quotes; this does not depend on what stands behind it.
-/
theorem unreported_list_iff {source : String} {line : Line} (hline : line ∈ (linesOf source).value)
    {slot : Slot} (hslot : slot? line.text.toList = some slot) {text : List Char}
    (htext : slot.text = '[' :: text)
    : (∀ d ∈ (linesOf source).notes, d.line ≠ line.number) ↔
        '\t' ∉ leading line.text.toList ∧
          ∃ items inner after, text = inner ++ ']' :: after ∧ Lists items inner ∧
            line.token = slot.fill (.list items) := by
  obtain ⟨below, hread, hnotes⟩ := exists_readLine (Nat.le_refl 1) hline
  have htoken : line.token = slot.fill (.list (listItems text).1) := by
    rw [readLine_of_bracket hslot htext] at hread
    exact congrArg Line.token (Option.some.inj hread).symm
  have hnone : (∀ d ∈ (linesOf source).notes, d.line ≠ line.number) ↔
      (readLine line.number line.text.toList below).notes = [] := by
    rw [List.eq_nil_iff_forall_not_mem]
    constructor
    . intro h d hd
      obtain ⟨hd, hsame⟩ := (hnotes d).mpr hd
      exact h d hd hsame
    . intro h d hd hsame
      exact h d ((hnotes d).mp ⟨hd, hsame⟩)
  rw [hnone, readLine_notes_eq_nil_iff hslot htext]
  apply and_congr_right
  intro _
  constructor
  . rintro ⟨after, hafter⟩
    obtain ⟨inner, hinner, hlists⟩ := listItems_closed_iff.mp (Prod.ext rfl hafter)
    exact ⟨_, inner, after, hinner, hlists, htoken⟩
  . rintro ⟨items, inner, after, hinner, hlists, _⟩
    exact ⟨after, congrArg Prod.snd (listItems_closed_iff.mpr ⟨inner, hinner, hlists⟩)⟩

/-- The first item of the outer list is all of it; nothing says that `b` is lost. -/
theorem unreported_list_iff_of_nested
    : let source := "tags: [[a], b]"
      let line : Line := ⟨1, 0, .entry "tags" (some (.list [.plain "[a"])), source⟩
      let text := "[a], b]".toList
      let slot : Slot := ⟨0, [' '], '[' :: text, fun value => .entry "tags" (some value)⟩
      (line ∈ (linesOf source).value ∧ slot? line.text.toList = some slot) ∧
      ((∀ d ∈ (linesOf source).notes, d.line ≠ line.number) ↔
        '\t' ∉ leading line.text.toList ∧
          ∃ items inner after, text = inner ++ ']' :: after ∧ Lists items inner ∧
            line.token = slot.fill (.list items)) := by
  intro source line text slot
  have hline : line ∈ (linesOf source).value := by decide +kernel
  have hsource : line.text.toList
      = indented 0 ((Atom.plain "tags").source ++ ':' :: ' ' :: '[' :: text) := by
    decide +kernel
  have hfirst : ∀ c ∈ ('[' :: text).head?, isBlank c = false := by
    rintro _ ⟨⟩
    rfl
  have hslot : slot? line.text.toList = some slot := by
    rw [hsource]
    exact slot?_keySource (by decide +kernel) (by decide) 0 hfirst (by decide +kernel)
  exact ⟨⟨hline, hslot⟩, unreported_list_iff hline hslot rfl⟩

/-- Text behind a list is lost without a report, where behind a quoted value it is reported. -/
theorem list_loses_text
    : let source := "tags: [a] b"
      let quoted := "tags: \"a\" b"
      (linesOf source).value = [⟨1, 0, .entry "tags" (some (.list [.plain "a"])), source⟩] ∧
      (linesOf source).notes = [] ∧
      (linesOf quoted).value = [⟨1, 0, .entry "tags" (some (.atom (.quoted "a"))), quoted⟩] ∧
      (linesOf quoted).notes.map Diagnostic.message
        = ["Ignoring text after closing quote: 'b'"] := by
  decide +kernel

end Runbook.Source
