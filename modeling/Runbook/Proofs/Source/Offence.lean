import Mathlib.Data.List.TakeWhile
import Runbook.Proofs.Source.Passage

/-!
This module contains what the errors of a source text are about: the quote or the bracket that a
value is left open with, or the first tab of an indentation. The column of an error is the one of
this character exactly if the blanks before it take one byte each.
-/

namespace Runbook.Source

open Text

theorem byteSize_cons (c : Char) (cs : List Char)
    : byteSize (c :: cs) = c.utf8Size + byteSize cs := by
  have hstart (s : List Char) (n : Nat)
      : s.foldl (fun n c => n + c.utf8Size) n = n + byteSize s := by
    unfold byteSize
    induction s generalizing n with
    | nil => rfl
    | cons d ds ih =>
      rw [List.foldl_cons, List.foldl_cons, ih, ih (0 + _), Nat.zero_add, Nat.add_assoc]
  exact (hstart cs (0 + c.utf8Size)).trans (by rw [Nat.zero_add])

theorem length_le_byteSize (s : List Char) : s.length ≤ byteSize s := by
  induction s with
  | nil => exact Nat.le_refl 0
  | cons c cs ih =>
    have := c.utf8Size_pos
    rw [byteSize_cons, List.length_cons]
    omega

theorem byteSize_eq_length_iff {s : List Char}
    : byteSize s = s.length ↔ ∀ c ∈ s, c.utf8Size = 1 := by
  induction s with
  | nil => exact iff_of_true rfl (List.forall_mem_nil _)
  | cons c cs ih =>
    have hc := c.utf8Size_pos
    have hcs := length_le_byteSize cs
    rw [byteSize_cons, List.length_cons, List.forall_mem_cons, ← ih]
    omega

/-- A value that starts with a character and is not ended in what follows, and what this is called. -/
inductive LeftOpen : Char → List Char → String → Prop where
  | string {quote : Char} {rest : List Char} (hquote : quote = '"' ∨ quote = '\'')
      (h : closeQuote? quote rest = none) : LeftOpen quote rest "Unterminated string"
  | item {rest : List Char} (h : (listItems rest).2 = .openItem)
      : LeftOpen '[' rest "Unterminated string in list"
  | list {rest : List Char} (h : (listItems rest).2 = .openList)
      : LeftOpen '[' rest "Unterminated list"

/--
What an error on a line is about, which is called by its message: a character of the line. Before it
stand the blanks `gap` and before these `front`.
-/
inductive Offence (raw : List Char) : String → List Char → List Char → Char → Prop where
  /-- The first tab of the indentation. -/
  | tab {gap rest : List Char} (hraw : raw = gap ++ '\t' :: rest)
      (hgap : ∀ c ∈ gap, isBlank c ∧ c ≠ '\t')
      : Offence raw "Tab character used for indentation" [] gap '\t'
  /-- The character that opens the value. -/
  | value {front rest : List Char} {slot : Slot} {c : Char} {message : String}
      (hslot : slot? raw = some slot) (hraw : raw = front ++ (slot.gap ++ slot.text))
      (htext : slot.text = c :: rest) (hopen : LeftOpen c rest message)
      : Offence raw message front slot.gap c

theorem Offence.getElem? {raw front gap : List Char} {message : String} {c : Char}
    (h : Offence raw message front gap c)
    : raw[(front ++ gap).length]? = some c := by
  obtain ⟨rest, hraw⟩ : ∃ rest, raw = (front ++ gap) ++ c :: rest := by
    cases h with
    | tab hraw _ => exact ⟨_, hraw⟩
    | value _ hraw htext _ => exact ⟨_, by rw [hraw, htext, List.append_assoc]⟩
  rw [hraw, List.getElem?_append_right (Nat.le_refl _), Nat.sub_self]
  rfl

/-- What a problem of a line is about: text that is dropped, or a character at its column. -/
inductive Remark.IsAbout (raw : List Char) (remark : Remark) : Prop where
  | ignoring (h : remark.IsIgnoring)
  | offence {front gap : List Char} {c : Char} (h : Offence raw remark.message front gap c)
      (hcolumn : remark.column = front.length + byteSize gap)

section Notes

variable {site : Site} {column : Nat} {d : Diagnostic}

theorem quotedValue_notes {quote : Char} {text : List Char} (hquote : quote = '"' ∨ quote = '\'')
    (hd : d ∈ (quotedValue site column quote text).notes)
    : ∃ remark : Remark, d = site.report remark ∧
        (remark.IsIgnoring ∨ remark.column = column ∧ LeftOpen quote text remark.message) := by
  unfold quotedValue at hd
  split at hd
  . dsimp only at hd
    split at hd
    . cases hd
    . rw [List.mem_singleton] at hd
      exact ⟨⟨.warning, column, _, _⟩, hd, .inl (isIgnoring_of_begins (by decide) _ _ _)⟩
  . next hopen =>
    rw [List.mem_singleton] at hd
    exact ⟨⟨.error, column, _, _⟩, hd, .inr ⟨rfl, .string hquote hopen⟩⟩

theorem listValue_notes {text : List Char} (hd : d ∈ (listValue site column text).notes)
    : ∃ remark : Remark, d = site.report remark ∧ remark.column = column ∧
        LeftOpen '[' text remark.message := by
  unfold listValue at hd
  dsimp only at hd
  split at hd
  . cases hd
  . next hopen =>
    rw [List.mem_singleton] at hd
    exact ⟨⟨.error, column, _, _⟩, hd, rfl, .item hopen⟩
  . next hopen =>
    rw [List.mem_singleton] at hd
    exact ⟨⟨.error, column, _, _⟩, hd, rfl, .list hopen⟩

theorem readValue_notes {following : RawLines} {text : List Char} {owner : Nat}
    (hd : d ∈ (readValue site following text column owner).notes)
    : ∃ remark : Remark, d = site.report remark ∧
        (remark.IsIgnoring ∨ remark.column = column ∧
          ∃ c rest, text = c :: rest ∧ LeftOpen c rest remark.message) := by
  have hquoted {quote : Char} {rest : List Char} (hquote : quote = '"' ∨ quote = '\'')
      (hd : d ∈ (quotedValue site column quote rest).notes)
      : ∃ remark : Remark, d = site.report remark ∧
          (remark.IsIgnoring ∨ remark.column = column ∧
            ∃ c after, quote :: rest = c :: after ∧ LeftOpen c after remark.message) := by
    obtain ⟨remark, hremark, hignoring | ⟨hcolumn, hopen⟩⟩ := quotedValue_notes hquote hd
    . exact ⟨remark, hremark, .inl hignoring⟩
    . exact ⟨remark, hremark, .inr ⟨hcolumn, quote, rest, rfl, hopen⟩⟩
  unfold readValue at hd
  dsimp only at hd
  split at hd
  . cases hd
  . split at hd
    . exact hquoted (.inl rfl) (by simpa using hd)
    . exact hquoted (.inr rfl) (by simpa using hd)
    . obtain ⟨remark, hremark, hcolumn, hopen⟩ := listValue_notes (by simpa using hd)
      exact ⟨remark, hremark, .inr ⟨hcolumn, '[', _, rfl, hopen⟩⟩
    . cases hd

theorem exists_first_tab {raw : List Char} (h : '\t' ∈ leading raw)
    : ∃ gap rest, (leading raw).takeWhile (· ≠ '\t') = gap ∧ raw = gap ++ '\t' :: rest ∧
        ∀ c ∈ gap, isBlank c ∧ c ≠ '\t' := by
  obtain ⟨gap, rest, hleading, hnot⟩ := List.eq_append_cons_of_mem h
  have hgap : ∀ c ∈ gap, c ≠ '\t' := by
    intro c hc htab
    exact hnot (htab ▸ hc)
  refine ⟨gap, rest ++ trimStart raw, ?_, ?_, ?_⟩
  . rw [hleading, List.takeWhile_append_of_pos fun c hc => decide_eq_true (hgap c hc),
      List.takeWhile_cons_of_neg (by simp), List.append_nil]
  . rw [← List.cons_append, ← List.append_assoc, ← hleading, leading_append_trimStart]
  . intro c hc
    have hmem : c ∈ leading raw := by
      rw [hleading]
      exact List.mem_append_left _ hc
    exact ⟨List.mem_takeWhile_imp hmem, hgap c hc⟩

theorem tabNotes_leading {raw : List Char} (hd : d ∈ tabNotes site (leading raw))
    : ∃ remark : Remark, d = site.report remark ∧ remark.IsAbout raw := by
  unfold tabNotes at hd
  split at hd
  . next htab =>
    rw [List.mem_singleton] at hd
    obtain ⟨gap, rest, htake, hraw, hgap⟩ := exists_first_tab (List.contains_iff_mem.mp htab)
    rw [htake] at hd
    refine ⟨⟨.error, byteSize gap, _, _⟩, hd, .offence (.tab hraw hgap) ?_⟩
    rw [List.length_nil, Nat.zero_add]
  . cases hd

theorem readLine_notes {number : Nat} {raw : List Char} {following : RawLines}
    (hd : d ∈ (readLine number raw following).notes)
    : ∃ remark : Remark, d = (⟨number, raw⟩ : Site).report remark ∧ remark.IsAbout raw := by
  cases lineForm raw with
  | ignored _ h =>
    rw [h] at hd
    cases hd
  | bare _ token remarks hremarks h =>
    rw [h, List.mem_append] at hd
    cases hd with
    | inl hd => exact tabNotes_leading hd
    | inr hd =>
      obtain ⟨remark, hmem, rfl⟩ := List.mem_map.mp hd
      exact ⟨remark, rfl, .ignoring (hremarks remark hmem)⟩
  | valued slot hslot hsuffix h =>
    rw [h, List.mem_append] at hd
    cases hd with
    | inl hd => exact tabNotes_leading hd
    | inr hd =>
      obtain ⟨remark, hremark, hignoring | ⟨hcolumn, c, rest, htext, hopen⟩⟩ := readValue_notes hd
      . exact ⟨remark, hremark, .ignoring hignoring⟩
      . obtain ⟨front, hfront⟩ := hsuffix
        refine ⟨remark, hremark, .offence (.value hslot hfront.symm htext hopen) ?_⟩
        rw [hcolumn]
        unfold Slot.column
        rw [← hfront, List.length_append, Nat.add_sub_cancel]

end Notes

/-- What the errors are called that a source text can have before it is read as a tree. -/
def offences : List String :=
  ["Unterminated string", "Unterminated string in list", "Unterminated list",
    "Tab character used for indentation"]

/--
An error points at the character that it is about exactly if the blanks before it, back to the colon
of its key or to the beginning of the line, take one byte each.
-/
theorem offence_column {source : String} {d : Diagnostic} (hd : d ∈ (linesOf source).notes)
    (hmessage : d.message ∈ offences)
    : ∃ above raw below front gap c,
        rawLinesOf source.toList = above ++ raw :: below ∧ d.line = above.length + 1 ∧
        Offence raw d.message front gap c ∧ raw[(front ++ gap).length]? = some c ∧
        d.column = front.length + byteSize gap + 1 ∧
        (d.column = (front ++ gap).length + 1 ↔ ∀ blank ∈ gap, blank.utf8Size = 1) := by
  obtain ⟨above, raw, below, hlines, hread⟩ := exists_readLine_of_note hd
  obtain ⟨remark, rfl, habout⟩ := readLine_notes hread
  rw [Site.report_message] at hmessage ⊢
  cases habout with
  | ignoring h =>
    have hnone : ∀ message ∈ offences, ¬ "Ignoring".toList <+: message.toList := by decide
    exact absurd h.2 (hnone _ hmessage)
  | offence h hcolumn =>
    refine ⟨above, raw, below, _, _, _, hlines, ?_, h, h.getElem?, ?_, ?_⟩
    . rw [Site.report_line]
      dsimp only
      omega
    . rw [Site.report_column, hcolumn]
    . rw [Site.report_column, hcolumn, ← byteSize_eq_length_iff, List.length_append]
      omega

/-- The value is left open at the fifth character, and the error points two characters further. -/
theorem offence_column_of_wideBlank
    : let source := "a: \u3000\"oops"
      let d := (⟨1, source.toList⟩ : Site).error 6 "Unterminated string"
        "Close the string with a matching \" before the end of the line"
      (d ∈ (linesOf source).notes ∧ d.message ∈ offences) ∧
      ∃ above raw below front gap c,
        rawLinesOf source.toList = above ++ raw :: below ∧ d.line = above.length + 1 ∧
        Offence raw d.message front gap c ∧ raw[(front ++ gap).length]? = some c ∧
        d.column = front.length + byteSize gap + 1 ∧
        (d.column = (front ++ gap).length + 1 ↔ ∀ blank ∈ gap, blank.utf8Size = 1) := by
  intro source d
  have hd : d ∈ (linesOf source).notes ∧ d.message ∈ offences := by decide +kernel
  exact ⟨hd, offence_column hd.1 hd.2⟩

/-- A wide blank before an open quote or before a tab moves the column past the character. -/
theorem column_misses_offence
    : let quote := "a: \u3000\"oops"
      let tab := "\u3000\tx: 1"
      ((linesOf quote).notes.map fun d => (d.message, d.line, quote.toList[d.column - 1]?))
        = [("Unterminated string", 1, some 'o')] ∧
      ((linesOf tab).notes.map fun d => (d.message, d.line, tab.toList[d.column - 1]?))
        = [("Tab character used for indentation", 1, some ':')] := by
  decide +kernel

end Runbook.Source
