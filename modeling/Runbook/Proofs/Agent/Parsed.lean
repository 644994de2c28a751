import Runbook.Agent.Parsed
import Runbook.Proofs.Errors

/-!
This module contains where the errors in the report on a text come from: the lines of the text, its
sections, and the checks on the whole agent.
-/

namespace Runbook

namespace Agent

/-- The agent that a header and the sections below it make up, if there is anything of the kind. -/
def completed (header : Option Header) (draft : Draft) : Option Agent :=
  if header.isSome || draft.hasTrigger || draft.hasSteps then
    let trigger := draft.agent.trigger
    some { draft.agent with
      id := (header.map (·.id)).getD ""
      version := (header.map (·.version)).getD ""
      trigger := { trigger with line := max 1 trigger.line } }
  else
    none

theorem ofLines_eq {lines : List Source.Line} {parts : Noted Outline}
    {entries : Noted (List Source.Entry)} {draft : Noted Draft} (hparts : outline none lines = parts)
    (hentries : Source.buildTree parts.value.body = entries)
    (hdraft : entries.value.foldlM Draft.addEntry {} = draft)
    : ofLines lines
        =
      ⟨completed parts.value.header draft.value,
        parts.notes ++ (headerNotes parts.value.header lines ++ (entries.notes ++ (draft.notes ++
          triggerNotes parts.value.header draft.value)))⟩ := by
  unfold ofLines completed Noted.noteAll
  dsimp only [bind]
  rw [hparts, hentries, hdraft]
  split
  . dsimp only [pure]
    rw [List.append_nil]
  . dsimp only [pure]
    rw [List.append_nil]

/-- The problems that the checks of a whole agent find, if there is an agent. -/
def checkNotes (agent : Option Agent) : List Diagnostic :=
  match agent with
  | some agent => agent.check
  | none => []

theorem parse_eq {source : String} {lines : Noted (List Source.Line)}
    (h : Source.linesOf source = lines)
    : let agent := Agent.ofLines lines.value
      Agent.parse source
        =
      { agent := agent.value
        report := (Report.ofList (lines.notes ++ agent.notes ++ checkNotes agent.value)).sorted
        lines := lines.value.length } := by
  rw [← h]
  rfl

end Agent

theorem Parsed.valid?_eq_ok_iff (parsed : Parsed) (agent : Agent)
    : parsed.valid? = .ok agent ↔ parsed.agent = some agent ∧ parsed.report.errors = [] := by
  unfold valid? Report.valid
  split
  . next other hother =>
    rw [hother]
    by_cases hvalid : parsed.report.errors = []
    . simp [hvalid]
    . simp [hvalid]
  . next hnone => simp [hnone]

end Runbook
