import Runbook.Proofs.Agent.Position
import Runbook.Session.Table

/-!
This module contains what holds of the report on any text: it is valid if there are no errors in it,
its errors and its warnings stand in the order of their positions, all of them on lines of the text,
and there is an error in it unless there is an agent.
-/

namespace Runbook

namespace Report

def InOrder (a b : Diagnostic) : Prop :=
  a.line < b.line ∨ (a.line = b.line ∧ a.column ≤ b.column)

theorem notAfter_iff (a b : Diagnostic) : a.notAfter b = true ↔ InOrder a b := by
  simp [Diagnostic.notAfter, InOrder]

theorem pairwise_mergeSort (ds : List Diagnostic)
    : (ds.mergeSort Diagnostic.notAfter).Pairwise InOrder := by
  have htrans (a b c : Diagnostic) (hab : a.notAfter b = true) (hbc : b.notAfter c = true)
      : a.notAfter c = true := by
    simp only [notAfter_iff, InOrder] at hab hbc ⊢
    omega
  have htotal (a b : Diagnostic) : (a.notAfter b || b.notAfter a) = true := by
    simp only [Bool.or_eq_true, notAfter_iff, InOrder]
    omega
  exact (List.pairwise_mergeSort htrans htotal ds).imp fun {a b} h => (notAfter_iff a b).mp h

theorem sorted_valid (r : Report) : r.sorted.valid = r.valid := by
  unfold valid sorted
  rw [Bool.eq_iff_iff, List.isEmpty_iff, List.isEmpty_iff, ← List.length_eq_zero_iff,
    List.length_mergeSort, List.length_eq_zero_iff]

/-- A report while problems come in, with a mark that says whether it is valid so far. -/
structure Running where
  valid : Bool := true
  report : Report := {}

namespace Running

/-- Files one more problem. An error ends the validity. -/
def push (r : Running) (d : Diagnostic) : Running :=
  match d.severity with
  | .error => ⟨false, { r.report with errors := r.report.errors ++ [d] }⟩
  | .warning => { r with report := { r.report with warnings := r.report.warnings ++ [d] } }

def pushAll (r : Running) (ds : List Diagnostic) : Running :=
  ds.foldl push r

theorem pushAll_eq (r : Running) (ds : List Diagnostic)
    : r.pushAll ds
        =
      ⟨r.valid && (ofList ds).valid,
        ⟨r.report.errors ++ (ofList ds).errors, r.report.warnings ++ (ofList ds).warnings⟩⟩ := by
  induction ds generalizing r with
  | nil => simp [pushAll, ofList, Report.valid]
  | cons d rest ih =>
    have hcons : r.pushAll (d :: rest) = (r.push d).pushAll rest := rfl
    rw [hcons, ih]
    unfold push
    split
    . next herror => simp [ofList, herror, Report.valid]
    . next hwarning => simp [ofList, hwarning, Report.valid]

theorem pushAll_empty (ds : List Diagnostic)
    : ({} : Running).pushAll ds = ⟨(ofList ds).valid, ofList ds⟩ := by
  rw [pushAll_eq]
  rfl

end Running

/-- A report that is in order, on a text of a number of lines. -/
structure IsConsistent (lines : Nat) (r : Report) : Prop where
  valid : r.valid ↔ r.errors = []
  errors : ∀ d ∈ r.errors, d.severity = .error
  warnings : ∀ d ∈ r.warnings, d.severity = .warning
  errors_inOrder : r.errors.Pairwise InOrder
  warnings_inOrder : r.warnings.Pairwise InOrder
  within : ∀ d ∈ r.errors ++ r.warnings, d.IsWithin lines

theorem isConsistent_sorted {lines : Nat} {ds : List Diagnostic} (h : ∀ d ∈ ds, d.IsWithin lines)
    : (ofList ds).sorted.IsConsistent lines where
  valid := List.isEmpty_iff
  errors d hd := by
    simpa using (List.mem_filter.mp (List.mem_mergeSort.mp hd)).2
  warnings d hd := by
    simpa using (List.mem_filter.mp (List.mem_mergeSort.mp hd)).2
  errors_inOrder := pairwise_mergeSort _
  warnings_inOrder := pairwise_mergeSort _
  within := by
    rw [List.forall_mem_append]
    constructor
    . exact fun d hd => h d (List.mem_filter.mp (List.mem_mergeSort.mp hd)).1
    . exact fun d hd => h d (List.mem_filter.mp (List.mem_mergeSort.mp hd)).1

end Report

namespace Agent

open Source Report

theorem errorsAmong_of_ofLines_eq_none {lines : List Line} (h : (ofLines lines).value = none)
    : errorsAmong (ofLines lines).notes ≠ [] := by
  rw [ofLines_eq rfl rfl rfl] at h ⊢
  dsimp only at h
  unfold completed at h
  split at h
  . cases h
  . next hnothing =>
    simp only [Bool.or_eq_true, not_or, Option.not_isSome_iff_eq_none] at hnothing
    simp [hnothing.1.1, headerNotes]

/-- All problems of a text: those of its lines, of its sections, and of the agent as a whole. -/
def problems (source : String) : List Diagnostic :=
  let lines := linesOf source
  let agent := ofLines lines.value
  lines.notes ++ agent.notes ++ checkNotes agent.value

theorem parse_report (source : String)
    : (Agent.parse source).report = (Report.ofList (problems source)).sorted := by
  rw [parse_eq rfl]
  rfl

theorem problems_isWithin (source : String)
    : ∀ d ∈ problems source, d.IsWithin (max 1 (lineCount source)) := by
  have hn : 1 ≤ max 1 (lineCount source) := Nat.le_max_left ..
  have hnumbers := pairwise_numbers 1 0 (rawLinesOf source.toList)
  obtain ⟨hlines, hwithin⟩ := linesOf_isWithin (Nat.le_refl (max 1 (lineCount source)))
  obtain ⟨hagent, hsteps⟩ := ofLines_isWithin hn (hnumbers.imp Nat.ne_of_lt) hwithin
  unfold problems
  dsimp only
  rw [List.forall_mem_append, List.forall_mem_append]
  refine ⟨⟨hlines, hagent⟩, ?_⟩
  unfold checkNotes
  split
  . next agent hsome => exact check_isWithin hn (hsteps agent hsome)
  . exact List.forall_mem_nil _

theorem errors_of_agent_eq_none {source : String} (h : (Agent.parse source).agent = none)
    : (Agent.parse source).report.errors ≠ [] := by
  rw [parse_report, ne_eq, Report.sorted_errors_eq_nil_iff]
  rw [parse_eq rfl] at h
  have herrors := errorsAmong_of_ofLines_eq_none h
  unfold problems
  simp [herrors]

theorem errors_of_valid?_eq_error {source : String} {report : Report}
    (h : (Agent.parse source).valid? = .error report)
    : report = (Agent.parse source).report ∧ report.errors ≠ [] := by
  unfold Parsed.valid? at h
  split at h
  . split at h
    . cases h
    . next hvalid =>
      cases h
      refine ⟨rfl, ?_⟩
      simpa [Report.valid] using hvalid
  . next hnone =>
    cases h
    exact ⟨rfl, errors_of_agent_eq_none hnone⟩

theorem errors_of_invalidSource {sessions : Sessions} {source : String} {input : Json}
    {report : Report} (h : (sessions.start source input).1 = .error (.invalidSource report))
    : report.errors ≠ [] := by
  unfold Sessions.start at h
  dsimp only at h
  split at h
  . next found hfound =>
    cases h
    exact (errors_of_valid?_eq_error hfound).2
  . -- a session is refused over an agent for what is wrong with its input or its secrets
    unfold Sessions.startAgent at h
    dsimp only at h
    split at h
    . cases h
    . cases h

/--
The report on a text has all of its problems, filed one by one and sorted at the end. Whether it is
valid is told apart by its errors, everything in it stands on a line of the text, and there is an
error in it whenever there is no agent, so that no refusal comes without one.
-/
theorem parse_isConsistent (source : String)
    : let parsed := Agent.parse source
      let running := ({} : Running).pushAll (problems source)
      parsed.report = running.report.sorted ∧
      parsed.report.valid = running.valid ∧
      parsed.report.IsConsistent (max 1 (lineCount source)) ∧
      (parsed.agent = none → parsed.report.errors ≠ []) ∧
      (∀ report, parsed.valid? = .error report → report.errors ≠ []) ∧
      ∀ (sessions : Sessions) (input : Json) (report : Report),
        (sessions.start source input).1 = .error (.invalidSource report) → report.errors ≠ [] := by
  intro parsed running
  have hrunning : running = ⟨_, _⟩ := Running.pushAll_empty (problems source)
  have hreport : parsed.report = _ := parse_report source
  have hconsistent := isConsistent_sorted (problems_isWithin source)
  rw [← parse_report] at hconsistent
  refine ⟨?_, ?_, hconsistent, errors_of_agent_eq_none, ?_, ?_⟩
  . rw [hrunning, hreport]
  . rw [hrunning, hreport, Report.sorted_valid]
  . exact fun report hreport => (errors_of_valid?_eq_error hreport).2
  . exact fun sessions input report hreport => errors_of_invalidSource hreport

end Agent

end Runbook
