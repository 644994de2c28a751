import Runbook.Guard
import Runbook.Retry
import Runbook.Run.Engine

/-!
This module contains the running of one step: its guard is decided, its capability is found, its
config is filled in, and the capability is called until it answers or no attempt is left. Errors
lose all secrets before anything else gets to see them. Engine and debug sessions run steps by the
same function.
-/

namespace Runbook

/-- How a step ends that does not fail. -/
inductive StepOutcome where
  /-- The guard was false, and nothing was called. -/
  | skipped
  | completed (value : Json) (attempts : Nat)

namespace Agent.Step

def span (step : Step) : Record :=
  .span "step" [("step_id", LogText.safe step.id), ("kind", LogText.safe step.kind),
    ("provider", (step.provider.map LogText.safe).getD "")]

def guardRecord (guard : String) (passed : Bool) : Record :=
  .debug "guard evaluated" [("condition", LogText.safe guard), ("passed", Record.flag passed)]

def outcomeRecords (outcome : String) (attempts duration : Nat) : List Record :=
  [.learned "step" ("outcome", outcome), .learned "step" ("attempts", Record.number attempts),
    .learned "step" ("duration_ms", Record.number duration)]

def completionRecord (step : Step) (attempts duration : Nat) : Record :=
  .info "step completed" [("step_id", LogText.safe step.id),
    ("attempts", Record.number attempts), ("duration_ms", Record.number duration)]

/-- The fields that all records of one attempt have. -/
def attemptFields (step : Step) (attempt : Nat) : List LogField :=
  [("step_id", LogText.safe step.id), ("attempt", Record.number attempt)]

/-- The log record of an attempt that has ended in time. -/
def dispatchRecord (step : Step) (attempt duration : Nat) (result : Except Cause Json) : Record :=
  let fields := step.attemptFields attempt ++ [("duration_ms", Record.number duration)]
  match result with
  | .ok _ => .debug "dispatch completed" fields
  | .error cause => .warn "dispatch failed" (fields ++ [("error", LogText.safe cause.text)])

end Agent.Step

def Cause.masked (secrets : List String) (cause : Cause) : Cause :=
  .root (Masking.mask secrets cause.text)

namespace RunState

/-- Records that a step has failed; the error loses all secrets. -/
def noteFailure (s : RunState) (step : Agent.Step) (start : Nat) (error : ExecutionError)
    : RunState :=
  s.note (.stepFailed step.id error.attempts (s.since start) (s.bindings.maskText error.message))

def writeOutcome (s : RunState) (outcome : String) (attempts duration : Nat) : RunState :=
  { s with
    journal := s.journal.writeAll (Agent.Step.outcomeRecords outcome attempts duration) }

end RunState

namespace Engine

open Agent

def policyOf (engine : Engine) (step : Step) : RetryPolicy where
  retries := step.retries
  timeout := step.timeout.getD engine.settings.defaultTimeout
  backoff := engine.settings.backoff

/-- What the capability of a step is asked. -/
def requestOf (engine : Engine) (step : Step) (bindings : Bindings) : Request where
  step := step.id
  kind := step.kind
  provider := step.provider
  config := Template.resolveFields engine.settings.missing bindings.values step.config
  bindings := bindings.values

def dispatch (step : Step) (backend : Backend) (request : Request) (secrets : List String)
    (attempt : Nat) (j : Journal) : Attempt Json × Journal :=
  let (answer, j) :=
    (j.write (.debug "dispatching" (step.attemptFields attempt))).invoke backend request
  let result := answer.result.mapError (Cause.masked secrets)
  ({ delay := answer.delay
     result
     records := [step.dispatchRecord attempt answer.delay result] }, j)

/-- The error of a step all of whose attempts have failed. -/
def stepError (step : Step) (bindings : Bindings) (attempts : Nat) : AttemptError → ExecutionError
  | .timedOut limit => .stepTimedOut step.id limit attempts
  | .failed cause => .stepFailed step.id attempts (bindings.maskText cause.text)

def failureWord : AttemptError → String
  | .timedOut _ => "timed_out"
  | .failed _ => "failed"

def complete (step : Step) (condition : Option Bool) (start : Nat) (value : Json) (attempts : Nat)
    (s : RunState) : RunState :=
  let duration := s.since start
  let saved := match step.save with
    | some name => { s with bindings := s.bindings.set name value }
    | none => s
  ((saved.note (.stepCompleted step.id condition attempts duration step.save)).writeOutcome
    "completed" attempts duration).write (step.completionRecord attempts duration)

/-- Calls the capability of a step as often as needed, and records how that ended. -/
def runOn (engine : Engine) (step : Step) (condition : Option Bool) (backend : Backend)
    (s : RunState) : Except ExecutionError StepOutcome × RunState :=
  let start := s.journal.clock
  let request := engine.requestOf step s.bindings
  let (outcome, journal) :=
    (engine.policyOf step).run (dispatch step backend request s.bindings.secretValues) s.journal
  let s := { s with journal }
  match outcome.result with
  | .ok value =>
    (.ok (.completed value outcome.attempts),
      complete step condition start value outcome.attempts s)
  | .error failure =>
    let error := stepError step s.bindings outcome.attempts failure
    (.error error,
      (s.noteFailure step start error).writeOutcome (failureWord failure) error.attempts
        (s.since start))

def dispatchStep (engine : Engine) (step : Step) (condition : Option Bool) (s : RunState)
    : Except ExecutionError StepOutcome × RunState :=
  match engine.registry.resolve step with
  | .ok backend => engine.runOn step condition backend s
  | .error error =>
    (.error error,
      (s.noteFailure step s.journal.clock error).writeOutcome "no_capability" 0 0)

def runStep (engine : Engine) (step : Step) (s : RunState)
    : Except ExecutionError StepOutcome × RunState :=
  let s := s.write step.span
  match step.guard with
  | none => engine.dispatchStep step none s
  | some guard =>
    let passed := Guard.eval s.bindings.values guard
    let s := s.write (Step.guardRecord guard passed)
    if passed then
      engine.dispatchStep step (some true) s
    else
      (.ok .skipped, (s.note (.stepSkipped step.id guard)).writeOutcome "skipped" 0 0)

end Engine

end Runbook
