import Runbook.Proofs.Run.Compare

/-!
This module contains everything that a step changes, which its result tells: it binds a value or
leaves the bindings as they are, it adds one event to the trace, and it makes as many calls as the
result has attempts. Without a guard that holds and a capability that is found there are none.
-/

namespace Runbook

/-- The attempts that are told of a step. -/
def Happening.attempts : Happening → Nat
  | stepCompleted _ _ attempts _ _ => attempts
  | stepFailed _ attempts _ _ => attempts
  | _ => 0

theorem Happening.attempts_timeless (what : Happening) : what.timeless.attempts = what.attempts := by
  cases what <;> rfl

/-- The attempts of a step with the given result. -/
def StepOutcome.attemptsOf : Except ExecutionError StepOutcome → Nat
  | .ok .skipped => 0
  | .ok (.completed _ attempts) => attempts
  | .error error => error.attempts

@[simp]
theorem StepOutcome.attemptsOf_error (error : ExecutionError)
    : attemptsOf (.error error) = error.attempts := rfl

namespace Agent.Step

theorem happening_attempts (step : Step) (b : Bindings)
    (result : Except ExecutionError StepOutcome)
    : (step.happening b result).attempts = StepOutcome.attemptsOf result := by
  cases result with
  | error error => rfl
  | ok outcome => cases outcome <;> rfl

/-- A value is bound under the name of the save, if there is one; nothing else is bound. -/
def Binds (step : Step) : Except ExecutionError StepOutcome → Bindings → Bindings → Prop
  | .ok (.completed value _), before, after =>
    after.secretNames = before.secretNames ∧
    ∀ name, after.get? name = if step.save = some name then some value else before.get? name
  | _, before, after => after = before

theorem binds_bindResult (step : Step) (b : Bindings) (result : Except ExecutionError StepOutcome)
    : step.Binds result b (step.bindResult b result) := by
  cases result with
  | error error => rfl
  | ok outcome =>
    cases outcome with
    | skipped => rfl
    | completed value attempts =>
      refine ⟨step.bindResult_secretNames b _, ?_⟩
      intro name
      unfold bindResult
      dsimp only
      cases step.save with
      | none => rfl
      | some saved =>
        simp only [Option.some.injEq]
        rw [Bindings.get?_set]

end Agent.Step

namespace Engine

open Agent StepOutcome

variable {engine : Engine} {step : Step} {s : RunState}

@[simp]
theorem stepError_attempts (step : Step) (b : Bindings) (attempts : Nat) (failure : AttemptError)
    : (stepError step b attempts failure).attempts = attempts := by
  cases failure <;> rfl

theorem dispatch_calls (step : Step) (backend : Backend) (request : Request)
    (secrets : List String) (number : Nat) (j : Journal)
    : (dispatch step backend request secrets number j).2.calls
        =
      j.calls ++ [⟨backend.number, request⟩] := rfl

theorem runOn_calls (engine : Engine) (step : Step) (condition : Option Bool) (backend : Backend)
    (s : RunState)
    : let ran := engine.runOn step condition backend s
      0 < attemptsOf ran.1 ∧
      ran.2.journal.calls
        =
      s.journal.calls ++ List.replicate (attemptsOf ran.1)
        ⟨backend.number, engine.requestOf step s.bindings⟩ := by
  obtain ⟨hpos, hcalls⟩ := (engine.policyOf step).run_calls
    (dispatch_calls step backend (engine.requestOf step s.bindings) s.bindings.secretValues)
    s.journal
  unfold runOn
  dsimp only
  split
  . rw [complete_calls]
    exact ⟨hpos, hcalls⟩
  . rw [attemptsOf_error, stepError_attempts]
    exact ⟨hpos, hcalls⟩

theorem dispatchStep_ne_skipped (engine : Engine) (step : Step) (condition : Option Bool)
    (s : RunState)
    : (engine.dispatchStep step condition s).1 ≠ .ok .skipped := by
  unfold dispatchStep
  split
  . unfold runOn
    dsimp only
    split <;> simp
  . simp

theorem runStep_skipped_iff (engine : Engine) (step : Step) (s : RunState)
    : (engine.runStep step s).1 = .ok .skipped ↔ step.admits s.bindings = false := by
  constructor
  . intro hskipped
    cases hadmits : step.admits s.bindings with
    | false => rfl
    | true =>
      rw [runStep_of_admits hadmits] at hskipped
      exact absurd hskipped (engine.dispatchStep_ne_skipped step _ _)
  . intro hadmits
    rw [runStep_of_not_admits hadmits]

theorem runStep_of_unresolved (h : step.admits s.bindings = true) {error : ExecutionError}
    (hresolve : engine.registry.resolve step = .error error)
    : (engine.runStep step s).1 = .error error ∧
      (engine.runStep step s).2.journal.calls = s.journal.calls := by
  rw [runStep_of_admits h, ← s.beginStep_calls step]
  unfold dispatchStep
  rw [hresolve]
  exact ⟨rfl, rfl⟩

theorem runStep_of_resolved (h : step.admits s.bindings = true) {backend : Backend}
    (hresolve : engine.registry.resolve step = .ok backend)
    : let ran := engine.runStep step s
      0 < attemptsOf ran.1 ∧
      ran.2.journal.calls
        =
      s.journal.calls ++ List.replicate (attemptsOf ran.1)
        ⟨backend.number, engine.requestOf step s.bindings⟩ := by
  rw [runStep_of_admits h, ← s.beginStep_calls step, ← s.beginStep_bindings step]
  unfold dispatchStep
  rw [hresolve]
  exact engine.runOn_calls step _ backend (s.beginStep step)

theorem attempts_of_unresolved {error : ExecutionError}
    (h : engine.registry.resolve step = .error error)
    : error.attempts = 0 := by
  unfold Registry.resolve at h
  split at h
  . cases h
  . cases h
    rfl

theorem runStep_calls (engine : Engine) (step : Step) (s : RunState)
    : ∃ made,
        (engine.runStep step s).2.journal.calls = s.journal.calls ++ made ∧
        made.length = attemptsOf (engine.runStep step s).1 ∧
        (∀ call ∈ made, ∃ backend,
          engine.registry.resolve step = .ok backend ∧
          call = ⟨backend.number, engine.requestOf step s.bindings⟩) ∧
        (made ≠ []
          ↔
        step.admits s.bindings = true ∧ ∃ backend, engine.registry.resolve step = .ok backend) := by
  cases hadmits : step.admits s.bindings with
  | false =>
    rw [runStep_of_not_admits hadmits, ← s.beginStep_calls step]
    exact ⟨[], (List.append_nil _).symm, rfl, List.forall_mem_nil _, by simp⟩
  | true =>
    cases hresolve : engine.registry.resolve step with
    | error error =>
      obtain ⟨hresult, hcalls⟩ := engine.runStep_of_unresolved hadmits hresolve
      rw [hresult, hcalls, attemptsOf_error, attempts_of_unresolved hresolve]
      exact ⟨[], (List.append_nil _).symm, rfl, List.forall_mem_nil _, by simp⟩
    | ok backend =>
      obtain ⟨hpos, hcalls⟩ := engine.runStep_of_resolved hadmits hresolve
      refine ⟨_, hcalls, List.length_replicate, ?_, ?_⟩
      . intro call hcall
        exact ⟨backend, rfl, List.eq_of_mem_replicate hcall⟩
      . simp [Nat.ne_of_gt hpos]

/--
A step adds one event to the trace, which tells of its result, and it binds a value exactly if it is
completed. The attempts that are told of are the calls that were made. There are none if the guard
is false or no capability is found.
-/
theorem runStep_all_or_nothing (engine : Engine) (step : Step) (s : RunState)
    : let result := (engine.runStep step s).1
      let after := (engine.runStep step s).2
      ∃ event made,
        after.trace = s.trace.push event ∧
        event.what.timeless = step.happening s.bindings result ∧
        step.Binds result s.bindings after.bindings ∧
        (result = .ok .skipped ↔ step.admits s.bindings = false) ∧
        after.journal.calls = s.journal.calls ++ made ∧
        (made ≠ []
          ↔
        step.admits s.bindings = true ∧ ∃ backend, engine.registry.resolve step = .ok backend) ∧
        (∀ call ∈ made, ∃ backend,
          engine.registry.resolve step = .ok backend ∧
          call = ⟨backend.number, engine.requestOf step s.bindings⟩) ∧
        made.length = attemptsOf result ∧
        event.what.attempts = attemptsOf result := by
  obtain ⟨event, htrace, hevent⟩ := engine.runStep_trace step s
  obtain ⟨made, hcalls, hlength, hmade, hnone⟩ := engine.runStep_calls step s
  refine ⟨event, made, htrace, hevent, ?_, engine.runStep_skipped_iff step s, hcalls, hnone, hmade,
    hlength, ?_⟩
  . rw [runStep_bindings]
    exact step.binds_bindResult s.bindings _
  . rw [← Happening.attempts_timeless, hevent, Step.happening_attempts]

end Engine

end Runbook
