import Runbook.Journal

/-!
This module contains the retrying of work that may fail: the pauses between attempts, the limits on
their number and their time, and the outcome. An attempt that takes longer than the limit is given
up at the limit and counts as failed.
-/

namespace Runbook

/-- The pauses between attempts, in milliseconds. -/
inductive Backoff where
  | none
  | fixed (delay : Nat)
  /-- The pause doubles with every retry until it reaches the limit. -/
  | exponential (initial limit : Nat)
  deriving DecidableEq, Repr, Inhabited

namespace Backoff

/-- How many times the first pause fits into the pause before a retry, as a number of 32 bits. -/
def factor (retry : Nat) : Nat :=
  if retry - 1 < 32 then 1 <<< (retry - 1) else UInt32.size - 1

/-- The longest span of time in whole milliseconds; its seconds are a number of 64 bits. -/
def longest : Nat :=
  UInt64.size * 1000 - 1

/--
The pause before a retry; the first retry has number 1. A multiple of the first pause that is no
span of time any more stays at the longest one.
-/
def delay : Backoff → Nat → Nat
  | none, _ => 0
  | fixed d, _ => d
  | exponential initial limit, retry => min (min (initial * factor retry) longest) limit

end Backoff

/-- Why an attempt failed. -/
inductive AttemptError where
  | failed (cause : Cause)
  | timedOut (limit : Nat)
  deriving DecidableEq

def AttemptError.message : AttemptError → String
  | failed cause => cause.text
  | timedOut limit => s!"timed out after {limit}ms"

/-- How often work is tried again, and for how long each attempt may take in milliseconds. -/
structure RetryPolicy where
  retries : Nat
  timeout : Nat
  backoff : Backoff := .none

/-- One attempt: how long it takes, how it ends, and what is logged when it ends in time. -/
structure Attempt (α : Type) where
  delay : Nat
  result : Except Cause α
  records : List Record := []

/-- How retried work ended, and the number of attempts that were made. -/
structure RetryOutcome (α : Type) where
  result : Except AttemptError α
  attempts : Nat

namespace RetryPolicy

/-- One attempt and the retries, counted in 32 bits. -/
def maxAttempts (policy : RetryPolicy) : Nat :=
  min (policy.retries + 1) (UInt32.size - 1)

/-- The pause before an attempt; there is none before the first. -/
def pause (policy : RetryPolicy) (attempt : Nat) (j : Journal) : Journal :=
  let delay := policy.backoff.delay (attempt - 1)
  if attempt ≤ 1 ∨ delay = 0 then
    j
  else
    (j.write (.debug "backing off before retry" [("attempt", Record.number attempt),
      ("delay_ms", Record.number delay)])).elapse delay

def failure (policy : RetryPolicy) (attempt : Nat) (cause : Cause) : Record :=
  .warn "attempt failed" [("attempt", Record.number attempt),
    ("max_attempts", Record.number policy.maxAttempts), ("error", cause.text)]

/-- The log record of an attempt that took too long. -/
def timeoutNote (policy : RetryPolicy) (attempt : Nat) : Record :=
  .warn "attempt timed out" [("attempt", Record.number attempt),
    ("max_attempts", Record.number policy.maxAttempts),
    ("timeout_ms", Record.number policy.timeout)]

/-- Ends an attempt: what it returned, if it did so in time, or why it failed. -/
def settle {α : Type} (policy : RetryPolicy) (number : Nat) (attempt : Attempt α) (j : Journal)
    : Except AttemptError α × Journal :=
  if attempt.delay ≤ policy.timeout then
    let j := (j.elapse attempt.delay).writeAll attempt.records
    match attempt.result with
    | .ok value => (.ok value, j)
    | .error cause => (.error (.failed cause), j.write (policy.failure number cause))
  else
    (.error (.timedOut policy.timeout),
      (j.elapse policy.timeout).write (policy.timeoutNote number))

/--
Tries work until an attempt succeeds or none is left. Attempts are numbered from one; the error of
the last one is the error of the work.
-/
def run {α : Type} (policy : RetryPolicy) (attempt : Nat → Journal → Attempt α × Journal)
    (j : Journal) : RetryOutcome α × Journal :=
  go policy.maxAttempts 1 (.timedOut policy.timeout) j
where
  /-- The first argument counts the attempts that are left. -/
  go : Nat → Nat → AttemptError → Journal → RetryOutcome α × Journal
    | 0, _, last, j => (⟨.error last, policy.maxAttempts⟩, j)
    | left + 1, number, _, j =>
      let (made, j) := attempt number (policy.pause number j)
      match policy.settle number made j with
      | (.ok value, j) => (⟨.ok value, number⟩, j)
      | (.error error, j) => go left (number + 1) error j

end RetryPolicy

end Runbook
