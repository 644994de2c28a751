import Runbook.Capability
import Runbook.Journal
import Runbook.Secret
import Runbook.Settings
import Runbook.Bindings
import Runbook.Trace

/-!
This module contains the engine, which is everything that a run needs besides the agent and its
input, and the state that a run changes.
-/

namespace Runbook

/-- What agents are run with. -/
structure Engine where
  registry : Registry := {}
  settings : Settings := {}
  secrets : SecretSource
  /-- Where variables of the environment come from. -/
  env : Environment := []

namespace Engine

/--
Whether a run goes on after a step has failed with an error. A faulty setup always ends it, since
the steps that follow would meet the same fault.
-/
def goesOnAfter (engine : Engine) (error : ExecutionError) : Bool :=
  engine.settings.failurePolicy = .continue && !error.isConfiguration

/-- The outputs of an agent, or, if it declares none, the value that was saved last. -/
def outputs (engine : Engine) (agent : Agent) (bindings : Bindings) (lastSaved : Option Json)
    : Json :=
  if agent.outputs.isEmpty then
    lastSaved.getD .null
  else
    .obj (Json.Fields.ofList (agent.outputs.map fun output =>
      (output.name, Template.resolveText engine.settings.missing bindings.values output.template)))

end Engine

/-- What the steps of a run change. -/
structure RunState where
  bindings : Bindings := {}
  trace : Trace := {}
  journal : Journal := {}

namespace RunState

def write (s : RunState) (record : Record) : RunState :=
  { s with journal := s.journal.write record }

def note (s : RunState) (what : Happening) : RunState :=
  { s with trace := s.trace.push ⟨what, s.journal.now⟩ }

/-- The time in milliseconds that has passed since a time of the journal's clock. -/
def since (s : RunState) (time : Nat) : Nat :=
  s.journal.clock - time

end RunState

end Runbook
