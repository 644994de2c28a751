import Runbook.Run.Execution

/-!
This module contains what a step does to the bindings and to the trace of a run: it binds at most
the name it saves its value under, and it adds one event, which is settled by its result except for
the times in it.
-/

namespace Runbook

namespace Happening

/-- A happening without the time it took. -/
def timeless : Happening → Happening
  | stepCompleted step condition attempts _ savedAs =>
    stepCompleted step condition attempts 0 savedAs
  | stepFailed step attempts _ error => stepFailed step attempts 0 error
  | finished success _ => finished success 0
  | other => other

end Happening

theorem Progress.lastSaved_add_congr {p q : Progress} (h : p.lastSaved = q.lastSaved)
    (step : Agent.Step) (outcome : Option StepOutcome)
    : (p.add step outcome).lastSaved = (q.add step outcome).lastSaved := by
  unfold add
  cases outcome with
  | none => exact h
  | some outcome =>
    cases outcome with
    | skipped => exact h
    | completed value attempts => simp [h]

namespace Agent.Step

def bindResult (step : Step) (b : Bindings) : Except ExecutionError StepOutcome → Bindings
  | .ok (.completed value _) =>
    match step.save with
    | some name => b.set name value
    | none => b
  | _ => b

theorem bindResult_secretNames (step : Step) (b : Bindings)
    (result : Except ExecutionError StepOutcome)
    : (step.bindResult b result).secretNames = b.secretNames := by
  unfold bindResult
  split
  . split <;> rfl
  . rfl

theorem bindResult_inOrder (step : Step) (b : Bindings) (order : SecretOrder)
    (result : Except ExecutionError StepOutcome)
    : step.bindResult (b.inOrder order) result = (step.bindResult b result).inOrder order := by
  unfold bindResult
  split
  . split <;> rfl
  . rfl

/-- Whether the guard of a step lets it run. -/
def admits (step : Step) (b : Bindings) : Bool :=
  step.guard.all (Guard.eval b.values)

/-- What is recorded of a step with the given result, apart from the time it took. -/
def happening (step : Step) (b : Bindings) : Except ExecutionError StepOutcome → Happening
  | .ok .skipped => .stepSkipped step.id (step.guard.getD "")
  | .ok (.completed _ attempts) =>
    .stepCompleted step.id (step.guard.map fun _ => true) attempts 0 step.save
  | .error error => .stepFailed step.id error.attempts 0 (b.maskText error.message)

end Agent.Step

namespace RunState

def beginStep (s : RunState) (step : Agent.Step) : RunState :=
  match step.guard with
  | none => s.write step.span
  | some guard =>
    (s.write step.span).write (Agent.Step.guardRecord guard (Guard.eval s.bindings.values guard))

def skipStep (s : RunState) (step : Agent.Step) : RunState :=
  (s.note (.stepSkipped step.id (step.guard.getD ""))).writeOutcome "skipped" 0 0

@[simp]
theorem beginStep_bindings (s : RunState) (step : Agent.Step)
    : (s.beginStep step).bindings = s.bindings := by
  unfold beginStep
  cases step.guard <;> rfl

@[simp]
theorem beginStep_trace (s : RunState) (step : Agent.Step)
    : (s.beginStep step).trace = s.trace := by
  unfold beginStep
  cases step.guard <;> rfl

@[simp]
theorem beginStep_calls (s : RunState) (step : Agent.Step)
    : (s.beginStep step).journal.calls = s.journal.calls := by
  unfold beginStep
  cases step.guard <;> rfl

end RunState

namespace Engine

open Agent

section Guarding

variable {engine : Engine} {step : Step} {s : RunState}

theorem runStep_of_not_admits (h : step.admits s.bindings = false)
    : engine.runStep step s = (.ok .skipped, (s.beginStep step).skipStep step) := by
  unfold Step.admits at h
  unfold runStep RunState.beginStep RunState.skipStep
  cases hguard : step.guard with
  | none =>
    rw [hguard] at h
    cases h
  | some guard =>
    rw [hguard] at h
    have hfalse : Guard.eval s.bindings.values guard = false := h
    have hbindings : (s.write step.span).bindings = s.bindings := rfl
    dsimp only
    rw [hbindings, hfalse]
    exact if_neg Bool.false_ne_true

theorem runStep_of_admits (h : step.admits s.bindings = true)
    : engine.runStep step s
        =
      engine.dispatchStep step (step.guard.map fun _ => true) (s.beginStep step) := by
  unfold Step.admits at h
  unfold runStep RunState.beginStep
  cases hguard : step.guard with
  | none => rfl
  | some guard =>
    rw [hguard] at h
    have htrue : Guard.eval s.bindings.values guard = true := h
    have hbindings : (s.write step.span).bindings = s.bindings := rfl
    dsimp only
    rw [hbindings, htrue]
    exact if_pos rfl

end Guarding

theorem complete_bindings (step : Step) (condition : Option Bool) (start : Nat) (value : Json)
    (attempts : Nat) (s : RunState)
    : (complete step condition start value attempts s).bindings
        =
      step.bindResult s.bindings (.ok (.completed value attempts)) := by
  unfold complete Step.bindResult
  cases step.save <;> rfl

theorem complete_trace (step : Step) (condition : Option Bool) (start : Nat) (value : Json)
    (attempts : Nat) (s : RunState)
    : (complete step condition start value attempts s).trace
        =
      s.trace.push
        ⟨.stepCompleted step.id condition attempts (s.since start) step.save, s.journal.now⟩ := by
  unfold complete
  cases step.save <;> rfl

theorem runOn_bindings (engine : Engine) (step : Step) (condition : Option Bool)
    (backend : Backend) (s : RunState)
    : (engine.runOn step condition backend s).2.bindings
        =
      step.bindResult s.bindings (engine.runOn step condition backend s).1 := by
  unfold runOn
  dsimp only
  split
  . rw [complete_bindings]
  . rfl

theorem runOn_trace (engine : Engine) (step : Step) (condition : Option Bool)
    (backend : Backend) (s : RunState)
    (hcond : condition = step.guard.map fun _ => true)
    : ∃ event,
        (engine.runOn step condition backend s).2.trace = s.trace.push event ∧
        event.what.timeless
          =
        step.happening s.bindings (engine.runOn step condition backend s).1 := by
  unfold runOn
  dsimp only
  split
  . rw [complete_trace]
    refine ⟨_, rfl, ?_⟩
    rw [hcond]
    rfl
  . exact ⟨_, rfl, rfl⟩

theorem dispatchStep_bindings (engine : Engine) (step : Step) (condition : Option Bool)
    (s : RunState)
    : (engine.dispatchStep step condition s).2.bindings
        =
      step.bindResult s.bindings (engine.dispatchStep step condition s).1 := by
  unfold dispatchStep
  split
  . apply runOn_bindings
  . rfl

theorem dispatchStep_trace (engine : Engine) (step : Step) (condition : Option Bool)
    (s : RunState) (hcond : condition = step.guard.map fun _ => true)
    : ∃ event,
        (engine.dispatchStep step condition s).2.trace = s.trace.push event ∧
        event.what.timeless
          =
        step.happening s.bindings (engine.dispatchStep step condition s).1 := by
  unfold dispatchStep
  split
  . apply runOn_trace
    exact hcond
  . exact ⟨_, rfl, rfl⟩

theorem runStep_bindings (engine : Engine) (step : Step) (s : RunState)
    : (engine.runStep step s).2.bindings
        =
      step.bindResult s.bindings (engine.runStep step s).1 := by
  cases hadmits : step.admits s.bindings with
  | false =>
    rw [runStep_of_not_admits hadmits]
    exact s.beginStep_bindings step
  | true => rw [runStep_of_admits hadmits, dispatchStep_bindings, RunState.beginStep_bindings]

theorem runStep_trace (engine : Engine) (step : Step) (s : RunState)
    : ∃ event,
        (engine.runStep step s).2.trace = s.trace.push event ∧
        event.what.timeless = step.happening s.bindings (engine.runStep step s).1 := by
  rw [← s.beginStep_trace step, ← s.beginStep_bindings step]
  cases hadmits : step.admits s.bindings with
  | false =>
    rw [runStep_of_not_admits hadmits]
    exact ⟨_, rfl, rfl⟩
  | true =>
    rw [runStep_of_admits hadmits]
    exact engine.dispatchStep_trace step _ _ rfl

def verdict (engine : Engine)
    : Except ExecutionError StepOutcome → Except ExecutionError (Option StepOutcome)
  | .ok outcome => .ok (some outcome)
  | .error error => if engine.goesOnAfter error then .ok none else .error error

theorem verdict_eq_some_iff {engine : Engine} {result : Except ExecutionError StepOutcome}
    {outcome : StepOutcome}
    : engine.verdict result = .ok (some outcome) ↔ result = .ok outcome := by
  unfold verdict
  split
  . simp
  . split <;> simp

theorem advance_fst (engine : Engine) (fields : List LogField) (step : Step) (s : RunState)
    : (engine.advance fields step s).1 = engine.verdict (engine.runStep step s).1 := by
  unfold advance verdict
  split
  . next hrun => rw [hrun]
  . next hrun =>
    rw [hrun]
    dsimp only
    split <;> rfl

theorem advance_snd (engine : Engine) (fields : List LogField) (step : Step) (s : RunState)
    : (engine.advance fields step s).2.bindings = (engine.runStep step s).2.bindings ∧
      (engine.advance fields step s).2.trace = (engine.runStep step s).2.trace ∧
      (engine.advance fields step s).2.journal.calls = (engine.runStep step s).2.journal.calls := by
  unfold advance
  split
  . next hrun =>
    rw [hrun]
    exact ⟨rfl, rfl, rfl⟩
  . next hrun =>
    rw [hrun]
    split <;> exact ⟨rfl, rfl, rfl⟩

theorem advance_bindings_of_no_outcome {engine : Engine} {fields : List LogField} {step : Step}
    {s s' : RunState} {result : Except ExecutionError (Option StepOutcome)}
    (h : engine.advance fields step s = (result, s'))
    (hresult : ∀ outcome, result ≠ .ok (some outcome))
    : s'.bindings = s.bindings := by
  have hverdict := engine.advance_fst fields step s
  have hbindings := (engine.advance_snd fields step s).1
  rw [h] at hverdict hbindings
  rw [hbindings, runStep_bindings]
  cases hrun : (engine.runStep step s).1 with
  | ok outcome =>
    rw [hrun] at hverdict
    exact absurd hverdict (hresult outcome)
  | error error => rfl

theorem runSteps_append (engine : Engine) (before later : List Step) (p : Progress) (s : RunState)
    : engine.runSteps (before ++ later) p s
        =
      match engine.runSteps before p s with
      | (none, p, s) => engine.runSteps later p s
      | ended => ended := by
  induction before generalizing p s with
  | nil => rfl
  | cons step rest ih =>
    rw [List.cons_append, runSteps, runSteps]
    split
    . exact ih _ _
    . rfl

/-- What every step keeps true stays true to the end. -/
theorem runSteps_invariant {engine : Engine} {I : RunState → Prop} {steps : List Step}
    (hstep : ∀ step ∈ steps, ∀ s, I s → I (engine.advance [] step s).2) (p : Progress)
    {s : RunState} (h : I s)
    : I (engine.runSteps steps p s).2.2 := by
  induction steps generalizing p s with
  | nil => exact h
  | cons step rest ih =>
    rw [List.forall_mem_cons] at hstep
    have hadvance := hstep.1 s h
    unfold runSteps
    generalize engine.advance [] step s = advanced at hadvance
    obtain ⟨result, s'⟩ := advanced
    cases result with
    | ok outcome => exact ih hstep.2 _ hadvance
    | error error => exact hadvance

theorem runSteps_secretNames (engine : Engine) (steps : List Step) (p : Progress) (s : RunState)
    : (engine.runSteps steps p s).2.2.bindings.secretNames = s.bindings.secretNames := by
  apply runSteps_invariant (I := fun s' => s'.bindings.secretNames = s.bindings.secretNames)
  . intro step _ s' h
    rw [(engine.advance_snd [] step s').1, runStep_bindings, Step.bindResult_secretNames, h]
  . rfl

end Engine

end Runbook
