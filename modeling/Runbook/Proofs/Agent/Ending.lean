import Runbook.Proofs.Agent.Parsed
import Runbook.Proofs.Source.Numbering

/-!
This module contains what is left of the text below the end of an agent: the agent does not depend
on it, but its lines are read all the same, and errors in their reading count.
-/

namespace Runbook.Agent

open Source

@[simp]
theorem errorsAmong_afterEnd (endLine : Nat) (lines : List Line)
    : errorsAmong (afterEnd endLine lines) = [] := by
  unfold afterEnd
  split <;> simp

theorem outline_end (header : Option Header) (above : List Line) {last : Line}
    {args : List String} (hlast : last.token = .directive "end" args) (below : List Line)
    : (outline header (above ++ last :: below)).value = (outline header (above ++ [last])).value ∧
      errorsAmong (outline header (above ++ last :: below)).notes
        =
      errorsAmong (outline header (above ++ [last])).notes := by
  induction above generalizing header with
  | nil =>
    rw [List.nil_append, List.nil_append, outline, outline, hlast]
    simp
  | cons line above ih =>
    rw [List.cons_append, List.cons_append, outline, outline]
    split
    . split
      . next first =>
        obtain ⟨hvalue, herrors⟩ := ih (some first)
        simp [hvalue, herrors, Noted.note]
      . next args _ _ =>
        obtain ⟨hvalue, herrors⟩ := ih (some (readHeader line args).value)
        simp [hvalue, herrors]
    . simp
    . obtain ⟨hvalue, herrors⟩ := ih header
      simp [hvalue, herrors, Noted.note]
    . obtain ⟨hvalue, herrors⟩ := ih header
      simp [hvalue, herrors]

theorem ofLines_end (above : List Line) {last : Line} {args : List String}
    (hlast : last.token = .directive "end" args) (below : List Line)
    : (ofLines (above ++ last :: below)).value = (ofLines (above ++ [last])).value ∧
      errorsAmong (ofLines (above ++ last :: below)).notes
        =
      errorsAmong (ofLines (above ++ [last])).notes := by
  obtain ⟨hvalue, herrors⟩ := outline_end none above hlast below
  -- whether a header is missing is reported on the first line
  have hheader (header : Option Header)
      : headerNotes header (above ++ last :: below) = headerNotes header (above ++ [last]) := by
    cases above <;> rfl
  unfold ofLines
  simp only [Noted.bind_value, Noted.bind_notes, errorsAmong_append]
  rw [hvalue, herrors, hheader]
  exact ⟨rfl, rfl⟩

def endLine (number : Nat) : Line :=
  ⟨number, 0, .directive "end" [], "@end"⟩

theorem staysOnLine_end : ∀ c ∈ "@end".toList, staysOnLine c := by
  rw [← List.all_eq_true]
  decide

theorem readsAs_end : ReadsAs ("@end".toList ++ ['\n']) 1 fun number => [endLine number] :=
  ReadsAs.single staysOnLine_end fun _ _ => rfl

theorem endsBlocks_end : EndsBlocks "@end".toList := by
  intro owner
  rfl

theorem linesOf_end (above below : String)
    : let first := linesAt 1 (above.toList ++ ['\n'])
      let number := 1 + (rawLinesOf (above.toList ++ ['\n'])).length
      let rest := linesAt (number + 1) below.toList
      linesOf (above ++ "\n@end\n" ++ below)
        =
      ⟨first.value ++ endLine number :: rest.value, first.notes ++ rest.notes⟩ := by
  have hsource : (above ++ "\n@end\n" ++ below).toList
      = above.toList ++ '\n' :: ("@end".toList ++ '\n' :: below.toList) := by
    simp
  have hend (number : Nat) := readsAs_end number below.toList
  simp only [List.append_assoc, List.singleton_append] at hend
  rw [linesOf_eq_linesAt, hsource, linesAt_append 1 _ staysOnLine_end endsBlocks_end]
  dsimp only
  rw [hend]

theorem sorted_errors_eq_iff {ds es first more rest : List Diagnostic}
    (hds : errorsAmong ds = first ++ more ++ rest) (hes : errorsAmong es = first ++ rest)
    : (Report.ofList ds).sorted.errors = (Report.ofList es).sorted.errors ↔ more = [] := by
  change (errorsAmong ds).mergeSort _ = (errorsAmong es).mergeSort _ ↔ _
  rw [hds, hes]
  constructor
  . intro h
    have hlength := congrArg List.length h
    simp only [List.length_mergeSort, List.length_append] at hlength
    rw [← List.length_eq_zero_iff]
    omega
  . intro h
    rw [h, List.append_nil]

theorem parse_end (above below : String)
    : let whole := Agent.parse (above ++ "\n@end\n" ++ below)
      let kept := Agent.parse (above ++ "\n@end\n")
      whole.agent = kept.agent ∧
      ∃ ds es first more rest,
        whole.report = (Report.ofList ds).sorted ∧
        kept.report = (Report.ofList es).sorted ∧
        errorsAmong ds = first ++ more ++ rest ∧
        errorsAmong es = first ++ rest ∧
        (errorsAmong (linesOf below).notes = [] ↔ more = []) := by
  intro whole kept
  have hempty := linesOf_end above ""
  rw [String.append_empty] at hempty
  have hwhole := Agent.parse_eq (linesOf_end above below)
  have hkept := Agent.parse_eq hempty
  generalize linesAt 1 (above.toList ++ ['\n']) = first at hwhole hkept
  generalize 1 + (rawLinesOf (above.toList ++ ['\n'])).length = number at hwhole hkept
  have hbelow := linesAt_errors_eq_nil_iff 1 (number + 1) below.toList
  obtain ⟨hvalue, hnotes⟩ := ofLines_end first.value (rfl : (endLine number).token = _)
    (linesAt (number + 1) below.toList).value
  constructor
  . unfold whole kept
    rw [hwhole, hkept]
    exact hvalue
  . let agent := ofLines (first.value ++ [endLine number])
    refine ⟨_, _, errorsAmong first.notes, errorsAmong (linesAt (number + 1) below.toList).notes,
      errorsAmong agent.notes ++ errorsAmong (checkNotes agent.value),
      congrArg Parsed.report hwhole, congrArg Parsed.report hkept, ?_, ?_, hbelow⟩
    . simp only [errorsAmong_append, hvalue, hnotes, List.append_assoc]
      rfl
    . simp only [errorsAmong_append, List.append_assoc]
      rfl

/--
The agent of a text does not depend on what is below its end. Its errors are those of the text
above, and so it is valid if that text is, precisely when the lines below are read without an error.
-/
theorem parse_below_end (above below : String)
    : let whole := Agent.parse (above ++ "\n@end\n" ++ below)
      let kept := Agent.parse (above ++ "\n@end\n")
      let isRead := errorsAmong (linesOf below).notes = []
      whole.agent = kept.agent ∧
      (whole.report.errors = kept.report.errors ↔ isRead) ∧
      ∀ agent, whole.valid? = .ok agent ↔ kept.valid? = .ok agent ∧ isRead := by
  intro whole kept isRead
  obtain ⟨hagent, ds, es, first, more, rest, hds, hes, hwhole, hkept, hread⟩ := parse_end above below
  refine ⟨hagent, ?_, ?_⟩
  . rw [hds, hes]
    exact (sorted_errors_eq_iff hwhole hkept).trans hread.symm
  . intro agent
    rw [whole.valid?_eq_ok_iff, kept.valid?_eq_ok_iff, hagent, hds, hes]
    rw [Report.sorted_errors_eq_nil_iff, Report.sorted_errors_eq_nil_iff, hwhole, hkept]
    simp only [isRead, hread, List.append_eq_nil_iff]
    constructor
    . rintro ⟨hsome, ⟨hfirst, hmore⟩, hrest⟩
      exact ⟨⟨hsome, hfirst, hrest⟩, hmore⟩
    . rintro ⟨⟨hsome, hfirst, hrest⟩, hmore⟩
      exact ⟨hsome, ⟨hfirst, hmore⟩, hrest⟩

/-- A text in quotes that is not closed is an error below the end as well. -/
theorem not_parse_below_end_eq
    : (Agent.parse ("@agent a v1\ntrigger: manual" ++ "\n@end\n" ++ "x: \"oops\n")).report.errors ≠
        (Agent.parse ("@agent a v1\ntrigger: manual" ++ "\n@end\n")).report.errors ∧
      (Agent.parse ("@agent a v1\ntrigger: manual" ++ "\n@end\n")).valid?.toOption.isSome ∧
      ¬ (Agent.parse ("@agent a v1\ntrigger: manual" ++ "\n@end\n" ++ "x: \"oops\n")).valid?.toOption.isSome
      := by
  decide +kernel

end Runbook.Agent
