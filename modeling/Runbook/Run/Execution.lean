import Runbook.Run.Seed
import Runbook.Run.Step

/-!
This module contains the execution of an agent: seeding, the steps in their order, and the outputs.
A step that fails ends the execution, unless the engine is set to go on.
-/

namespace Runbook

/-- How far a run has come. -/
structure Progress where
  lastSaved : Option Json := none
  /-- The number of steps that were run and neither skipped nor the end of the run. -/
  stepsRun : Nat := 0
  /-- Whether a step has failed. -/
  failed : Bool := false

namespace Progress

/-- The progress after a step; no outcome stands for a failure that the run outlives. -/
def add (progress : Progress) (step : Agent.Step) : Option StepOutcome → Progress
  | some .skipped => progress
  | some (.completed value _) =>
    { progress with
      stepsRun := progress.stepsRun + 1
      lastSaved := if step.save.isSome then some value else progress.lastSaved }
  | none => { progress with stepsRun := progress.stepsRun + 1, failed := true }

end Progress

/-- What an execution leaves behind. -/
structure Execution where
  result : Except ExecutionError Json
  state : RunState

namespace Execution

def resultJson (execution : Execution) : Json :=
  match execution.result with
  | .ok value => .obj [("ok", value)]
  | .error error => .obj [("error", .str error.message)]

end Execution

namespace Engine

/--
Runs a step and decides whether the run goes on: with the outcome of the step, or with none after a
failure that the run outlives. The fields stand in front of the others in the record of such a
failure.
-/
def advance (engine : Engine) (fields : List LogField) (step : Agent.Step) (s : RunState)
    : Except ExecutionError (Option StepOutcome) × RunState :=
  match engine.runStep step s with
  | (.ok outcome, s) => (.ok (some outcome), s)
  | (.error error, s) =>
    if engine.goesOnAfter error then
      (.ok none, s.write (.warn "step failed, continuing"
        (fields ++ [("error", LogText.safe (s.bindings.maskText error.message))])))
    else
      (.error error, s)

/-- Runs steps one after another, up to the first failure that ends the run. -/
def runSteps (engine : Engine)
    : List Agent.Step → Progress → RunState → Option ExecutionError × Progress × RunState
  | [], progress, s => (none, progress, s)
  | step :: rest, progress, s =>
    match engine.advance [] step s with
    | (.ok outcome, s) => runSteps engine rest (progress.add step outcome) s
    | (.error error, s) => (some error, progress, s)

/-- Records the end of the steps of an execution that began at some time. -/
def finish (start stepsRun : Nat) (success : Bool) (s : RunState) : RunState :=
  let duration := s.since start
  ((s.write (.learned "agent_execution" ("steps_run", Record.number stepsRun))).note
    (.finished success duration)).write (.info "execution finished"
      [("success", Record.flag success), ("duration_ms", Record.number duration)])

/-- The steps and outputs of an agent whose bindings are seeded. -/
def executeSeeded (engine : Engine) (agent : Agent) (start : Nat) (s : RunState) : Execution :=
  match engine.runSteps agent.steps {} s with
  | (some error, progress, s) => ⟨.error error, finish start progress.stepsRun false s⟩
  | (none, progress, s) =>
    ⟨.ok (engine.outputs agent s.bindings progress.lastSaved),
      finish start progress.stepsRun (!progress.failed) s⟩

def executionSpan (agent : Agent) : Record :=
  .span "agent_execution"
    [("agent", LogText.safe agent.id), ("version", LogText.safe agent.version)]

def execute (engine : Engine) (agent : Agent) (input : Json) (journal : Journal) : Execution :=
  let start := journal.clock
  let opened : RunState :=
    { trace := Trace.new engine.settings.traceCapacity, journal := journal.pastOrder }
  let s := (opened.write (executionSpan agent)).note (.started agent.id agent.version)
  let (seeded, notes) := engine.seed agent input
  let s := { s with journal := s.journal.writeAll notes }
  let execution : Execution := match seeded with
    | .error error => ⟨.error error, s⟩
    | .ok bindings =>
      engine.executeSeeded agent start { s with bindings := bindings.inOrder journal.order }
  { execution with
    state := execution.state.write
      (.learned "agent_execution" ("success", Record.flag execution.result.toBool)) }

end Engine

end Runbook
