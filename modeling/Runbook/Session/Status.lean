/-!
This module contains the states that a debug session goes through.
-/

namespace Runbook

inductive SessionStatus where
  | ready
  | running
  | pausedAtBreakpoint
  /-- All steps have run, and the outputs are still to be rendered. -/
  | pausedAtEnd
  | completed
  | failed
  | stopped
  deriving DecidableEq, Repr, Inhabited

namespace SessionStatus

def name : SessionStatus → String
  | ready => "ready"
  | running => "running"
  | pausedAtBreakpoint => "paused_at_breakpoint"
  | pausedAtEnd => "paused_at_end"
  | completed => "completed"
  | failed => "failed"
  | stopped => "stopped"

/-- Whether a session waits for somebody to let it go on. -/
def canProceed : SessionStatus → Bool
  | ready => true
  | pausedAtBreakpoint => true
  | pausedAtEnd => true
  | _ => false

def isTerminal : SessionStatus → Bool
  | completed => true
  | failed => true
  | stopped => true
  | _ => false

theorem canProceed_iff {status : SessionStatus}
    : status.canProceed ↔ status = ready ∨ status = pausedAtBreakpoint ∨ status = pausedAtEnd := by
  cases status <;> simp [canProceed]

theorem not_isTerminal_of_canProceed {status : SessionStatus} (h : status.canProceed)
    : ¬ status.isTerminal := by
  obtain rfl | rfl | rfl := canProceed_iff.mp h <;> exact Bool.false_ne_true

end SessionStatus

end Runbook
