import Runbook.Agent.Checks
import Runbook.Agent.Sections
import Runbook.Log

/-!
This module contains the result of reading a source text: the agent, if the text looks like one,
and the report on everything that is wrong with the text.
-/

namespace Runbook

/-- What a source text says. -/
structure Parsed where
  agent : Option Agent
  report : Report
  /-- The number of lines that are neither blank nor comments nor within blocks. -/
  lines : Nat

namespace Parsed

/-- The agent of a text without errors, or else the report. -/
def valid? (parsed : Parsed) : Except Report Agent :=
  match parsed.agent with
  | some agent => if parsed.report.valid then .ok agent else .error parsed.report
  | none => .error parsed.report

def record (parsed : Parsed) : Record :=
  .debug "parsed agent source" [("lines", Record.number parsed.lines),
    ("errors", Record.number parsed.report.errors.length),
    ("warnings", Record.number parsed.report.warnings.length)]

end Parsed

def Agent.parse (source : String) : Parsed :=
  let lines := Source.linesOf source
  let agent := Agent.ofLines lines.value
  let checks := match agent.value with
    | some a => a.check
    | none => []
  { agent := agent.value
    report := (Report.ofList (lines.notes ++ agent.notes ++ checks)).sorted
    lines := lines.value.length }

end Runbook
