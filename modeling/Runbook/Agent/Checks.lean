import Runbook.Agent.Definition
import Runbook.Diagnostic
import Runbook.Template

/-!
This module contains the checks that need a whole agent: repeated step ids, agents without steps,
and results that are saved and never read.
-/

namespace Runbook.Agent

def repeatedIds (steps : List Step) : List Diagnostic :=
  go [] steps
where
  /-- `seen` holds the ids met so far with the lines of their first steps. -/
  go (seen : List (String × Nat)) : List Step → List Diagnostic
    | [] => []
    | step :: rest =>
      match seen.lookup step.id with
      | some first =>
        (Diagnostic.error step.line 1
          (s!"Duplicate step id '{step.id}' (first defined on line {first}, " ++
            s!"again on line {step.line})")).withSuggestion
          "Step ids must be unique; rename one of them" :: go seen rest
      | none => go (seen ++ [(step.id, step.line)]) rest

/-- The warning on an agent without steps. -/
def noSteps (agent : Agent) : List Diagnostic :=
  if agent.steps.isEmpty then
    [(Diagnostic.warning 1 1 s!"Agent '{agent.id}' has no steps").withSuggestion
      "Add a \x60steps:\x60 section; executing this agent only renders its outputs"]
  else
    []

/-- The variables that a step reads: those of its guard and of its config. -/
def Step.reads (step : Step) : List String :=
  (step.guard.map Template.names).getD [] ++ Template.namesIn (.obj step.config)

/-- The warnings on steps that save a name which neither a later step nor an output reads. -/
def unreadSaves (outputs : List Output) : List Step → List Diagnostic
  | [] => []
  | step :: later =>
    let note := match step.save with
      | some name =>
        if later.any (·.reads.contains name) ||
            outputs.any (fun o => (Template.names o.template).contains name) then
          []
        else
          [(Diagnostic.warning step.line 1
            s!"Step '{step.id}' saves '{name}' but nothing reads it").withSuggestion
            ("Reference it as \x7b" ++ name ++
              "\x7d in a later step or in outputs, or drop \x60save\x60")]
      | none => []
    note ++ unreadSaves outputs later

def check (agent : Agent) : List Diagnostic :=
  repeatedIds agent.steps ++ noSteps agent ++ unreadSaves agent.outputs agent.steps

end Runbook.Agent
