import Runbook.Proofs.Errors
import Runbook.Proofs.Source.Passage

/-!
This module contains what the numbers of lines have to do with their reading: they only mark the
lines and the problems, and they rise from line to line.
-/

namespace Runbook.Source

open Text

/-- Two lines that are alike but for their numbers take the same blocks and have like problems. -/
theorem readLine_alike (number other : Nat) (raw : List Char) (following : RawLines)
    : (readLine number raw following).value.lines = (readLine other raw following).value.lines ∧
      (readLine number raw following).notes.map Diagnostic.severity
        =
      (readLine other raw following).notes.map Diagnostic.severity := by
  obtain ⟨token, lines, remarks, hread⟩ := readLine_eq raw following
  rw [hread, hread]
  refine ⟨rfl, ?_⟩
  simp only [List.map_map]
  apply List.map_congr_left
  intro remark _
  simp

theorem readLines_severity (number other taken : Nat) (lines : RawLines)
    : (readLines.go number taken lines).notes.map Diagnostic.severity
        =
      (readLines.go other taken lines).notes.map Diagnostic.severity := by
  induction lines generalizing number other taken with
  | nil => rfl
  | cons raw rest ih =>
    cases taken with
    | succ taken => exact ih (number + 1) (other + 1) taken
    | zero =>
      obtain ⟨hlines, hnotes⟩ := readLine_alike number other raw rest
      rw [readLines.go, readLines.go]
      simp only [Noted.bind_notes, Noted.pure_notes, List.map_append, List.append_nil]
      rw [hlines, hnotes, ih (number + 1) (other + 1)]

theorem linesAt_errors_eq_nil_iff (number other : Nat) (text : List Char)
    : errorsAmong (linesAt number text).notes = [] ↔ errorsAmong (linesAt other text).notes = [] := by
  unfold linesAt
  rw [errorsAmong_eq_nil_iff, errorsAmong_eq_nil_iff, readLines_severity number other]

section Line

variable {number : Nat} {raw : List Char} {following : RawLines} {line : Line}
  (h : (readLine number raw following).value.value = some line)
include h

theorem readLine_line : ∃ token, line = ⟨number, leadingBlanks raw, token, String.ofList raw⟩ := by
  obtain ⟨token, lines, remarks, hread⟩ := readLine_eq raw following
  rw [hread] at h
  obtain ⟨token, _, rfl⟩ := Option.map_eq_some_iff.mp h
  exact ⟨token, rfl⟩

theorem readLine_number : line.number = number := by
  obtain ⟨_, rfl⟩ := readLine_line h
  rfl

theorem readLine_text : line.text.toList = raw := by
  obtain ⟨_, rfl⟩ := readLine_line h
  exact String.toList_ofList

end Line

theorem readLine_notes_line {number : Nat} {raw : List Char} {following : RawLines} {d : Diagnostic}
    (hd : d ∈ (readLine number raw following).notes)
    : d.line = max 1 number := by
  obtain ⟨token, lines, remarks, hread⟩ := readLine_eq raw following
  rw [hread] at hd
  obtain ⟨remark, _, rfl⟩ := List.mem_map.mp hd
  exact Site.report_line _ _

theorem exists_readLine {number taken : Nat} (hnumber : 1 ≤ number) {lines : RawLines} {line : Line}
    (hline : line ∈ (readLines.go number taken lines).value)
    : ∃ below, let read := readLine line.number line.text.toList below
        read.value.value = some line ∧
          ∀ d, (d ∈ (readLines.go number taken lines).notes ∧ d.line = line.number) ↔
            d ∈ read.notes := by
  obtain ⟨above, raw, below, hlines, hread, hnotes⟩ := exists_readLine_of_line hline
  refine ⟨below, ?_⟩
  rw [readLine_number hread, readLine_text hread]
  refine ⟨hread, ?_⟩
  intro d
  constructor
  . rintro ⟨hd, hsame⟩
    obtain ⟨others, other, rest, hothers, hother⟩ := exists_readLine_of_note hd
    have hlength : others.length = above.length := by
      have := readLine_notes_line hother
      omega
    obtain ⟨rfl, hrest⟩ := List.append_inj (hothers.symm.trans hlines) hlength
    cases hrest
    exact hother
  . intro hd
    refine ⟨hnotes hd, ?_⟩
    rw [readLine_notes_line hd]
    omega

theorem le_number {number taken : Nat} {lines : RawLines} {line : Line}
    (h : line ∈ (readLines.go number taken lines).value)
    : number ≤ line.number := by
  obtain ⟨above, raw, below, _, hread, _⟩ := exists_readLine_of_line h
  rw [readLine_number hread]
  exact Nat.le_add_right number above.length

theorem pairwise_numbers (number taken : Nat) (lines : RawLines)
    : ((readLines.go number taken lines).value.map Line.number).Pairwise (· < ·) := by
  induction lines generalizing number taken with
  | nil => exact .nil
  | cons raw rest ih =>
    cases taken with
    | succ taken => exact ih (number + 1) taken
    | zero =>
      have hrest := ih (number + 1) (readLine number raw rest).value.lines
      rw [readLines.go]
      simp only [Noted.bind_value, Noted.pure_value]
      cases hline : (readLine number raw rest).value.value with
      | none => exact hrest
      | some first =>
        rw [Option.toList_some, List.singleton_append, List.map_cons, List.pairwise_cons,
          List.forall_mem_map]
        refine ⟨?_, hrest⟩
        intro line hmem
        rw [readLine_number hline]
        exact le_number hmem

end Runbook.Source
