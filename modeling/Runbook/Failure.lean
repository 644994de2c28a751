import Runbook.Diagnostic

/-!
This module contains what can go wrong once an agent is executed or debugged, and the text of each
failure.
-/

namespace Runbook

/-- Why a piece of work failed: a root cause, perhaps within wider contexts. -/
inductive Cause where
  | root (text : String)
  | within (context : String) (cause : Cause)
  deriving DecidableEq

namespace Cause

def text : Cause → String
  | root text => text
  | within context cause => context ++ ": " ++ cause.text

/-- The widest context alone. -/
def outermost : Cause → String
  | root text => text
  | within context _ => context

end Cause

/-- Why an execution ended without a result. -/
inductive ExecutionError where
  | missingVariable (name : String)
  | missingSecret (name source : String)
  | noCapability (step kind provider : String)
  | stepTimedOut (step : String) (timeout attempts : Nat)
  | stepFailed (step : String) (attempts : Nat) (cause : String)
  deriving DecidableEq

namespace ExecutionError

def message : ExecutionError → String
  | missingVariable name => s!"missing required variable '{name}' (no input and no default)"
  | missingSecret name source => s!"secret '{name}' could not be resolved from '{source}'"
  | noCapability step kind provider =>
    s!"step '{step}': no capability registered for kind={kind} provider={provider}"
  | stepTimedOut step timeout attempts =>
    s!"step '{step}' timed out after {timeout}ms ({attempts} attempt(s))"
  | stepFailed step attempts cause => s!"step '{step}' failed after {attempts} attempt(s): {cause}"

def step? : ExecutionError → Option String
  | missingVariable _ => none
  | missingSecret _ _ => none
  | noCapability step _ _ => some step
  | stepTimedOut step _ _ => some step
  | stepFailed step _ _ => some step

def attempts : ExecutionError → Nat
  | stepTimedOut _ _ attempts => attempts
  | stepFailed _ attempts _ => attempts
  | _ => 0

/-- Whether the agent or its surroundings are set up wrongly, so that a retry cannot help. -/
def isConfiguration : ExecutionError → Bool
  | missingVariable _ => true
  | missingSecret _ _ => true
  | noCapability _ _ _ => true
  | _ => false

end ExecutionError

/-- Why an operation on a debug session was refused or failed. -/
inductive SessionError where
  | notFound (session : String)
  | invalidSource (report : Report)
  | unknownStep (agent step : String)
  | invalidState (action status : String)
  | execution (error : ExecutionError)
  deriving DecidableEq

namespace SessionError

def message : SessionError → String
  | notFound session => s!"session '{session}' not found"
  | invalidSource report =>
    let first := match report.errors with
      | d :: _ => d.text
      | [] => "no recognizable agent structure"
    s!"agent source has {report.errors.length} error(s); first: {first}"
  | unknownStep agent step => s!"step '{step}' does not exist in agent '{agent}'"
  | invalidState action status => s!"cannot {action} while session is {status}"
  | execution error => error.message

end SessionError

/-- Anything that can go wrong. -/
inductive Failure where
  | execution (error : ExecutionError)
  | session (error : SessionError)
  | configuration (text : String)
  | other (cause : Cause)
  deriving DecidableEq

namespace Failure

def message : Failure → String
  | execution error => "Execution error: " ++ error.message
  | session error => "Session error: " ++ error.message
  | configuration text => "Configuration error: " ++ text
  | other cause => cause.outermost

end Failure

end Runbook
