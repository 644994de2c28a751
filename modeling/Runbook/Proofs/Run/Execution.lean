import Runbook.Proofs.Run.Alike

/-!
This module contains what an execution takes over from the run of its steps: the result, the
bindings, the calls, and the trace with the end of the run behind it.
-/

namespace Runbook

/-- An execution whose steps left a run state behind and that ended with a result. -/
structure Execution.EndsWith (execution : Execution) (result : Except ExecutionError Json)
    (success : Bool) (s : RunState) : Prop where
  result : execution.result = result
  bindings : execution.state.bindings = s.bindings
  calls : execution.state.journal.calls = s.journal.calls
  trace : ∃ duration time,
    execution.state.trace = s.trace.push ⟨.finished success duration, time⟩

/-- An execution that ends as the run of an agent's steps from a state does. -/
def Execution.IsRunFrom (execution : Execution) (engine : Engine) (agent : Agent)
    (s₀ : RunState) : Prop :=
  match engine.runSteps agent.steps {} s₀ with
  | (some error, _, s) => execution.EndsWith (.error error) false s
  | (none, p, s) =>
    execution.EndsWith (.ok (engine.outputs agent s.bindings p.lastSaved)) (!p.failed) s

section IsRunFrom

variable {execution : Execution} {engine : Engine} {agent : Agent} {s₀ s : RunState} {p : Progress}

theorem Execution.IsRunFrom.of_error (h : execution.IsRunFrom engine agent s₀)
    {error : ExecutionError} (hrun : engine.runSteps agent.steps {} s₀ = (some error, p, s))
    : execution.EndsWith (.error error) false s := by
  unfold IsRunFrom at h
  rw [hrun] at h
  exact h

theorem Execution.IsRunFrom.of_none (h : execution.IsRunFrom engine agent s₀)
    (hrun : engine.runSteps agent.steps {} s₀ = (none, p, s))
    : execution.EndsWith (.ok (engine.outputs agent s.bindings p.lastSaved)) (!p.failed) s := by
  unfold IsRunFrom at h
  rw [hrun] at h
  exact h

theorem Execution.IsRunFrom.endsWith (h : execution.IsRunFrom engine agent s₀)
    : let (failure, p, s) := engine.runSteps agent.steps {} s₀
      execution.EndsWith
        (match failure with
          | some error => .error error
          | none => .ok (engine.outputs agent s.bindings p.lastSaved))
        (failure.isNone && !p.failed) s := by
  unfold IsRunFrom at h
  generalize engine.runSteps agent.steps {} s₀ = ran at h
  obtain ⟨_ | error, p, s⟩ := ran
  . exact h
  . exact h

theorem Execution.IsRunFrom.endsAlike {engine₁ engine₂ : Engine} {agent₁ agent₂ : Agent}
    {e₁ e₂ : Execution} {s₁ s₂ : RunState} {A : Progress × RunState → Progress × RunState → Prop}
    (h₁ : e₁.IsRunFrom engine₁ agent₁ s₁) (h₂ : e₂.IsRunFrom engine₂ agent₂ s₂)
    (htogether : Engine.EndTogether A (engine₁.runSteps agent₁.steps {} s₁)
      (engine₂.runSteps agent₂.steps {} s₂))
    (houtputs : ∀ x₁ x₂, A x₁ x₂ → engine₁.outputs agent₁ x₁.2.bindings x₁.1.lastSaved
      = engine₂.outputs agent₂ x₂.2.bindings x₂.1.lastSaved)
    : Engine.EndsAlike e₁.state.bindings e₂.state.bindings e₁.result e₂.result := by
  have hends₁ := h₁.endsWith
  have hends₂ := h₂.endsWith
  generalize engine₁.runSteps agent₁.steps {} s₁ = ran₁ at htogether hends₁
  generalize engine₂.runSteps agent₂.steps {} s₂ = ran₂ at htogether hends₂
  obtain ⟨failure₁, p₁, s₁⟩ := ran₁
  obtain ⟨failure₂, p₂, s₂⟩ := ran₂
  obtain ⟨hfailure, hcommon⟩ := htogether
  dsimp only at hfailure hcommon hends₁ hends₂
  rw [hends₁.result, hends₁.bindings, hends₂.result, hends₂.bindings]
  cases hfailure with
  | none =>
    rw [houtputs _ _ hcommon]
    exact .ok _
  | some herror => exact .error herror

theorem Execution.IsRunFrom.write (h : execution.IsRunFrom engine agent s₀) (record : Record)
    : IsRunFrom ⟨execution.result, execution.state.write record⟩ engine agent s₀ := by
  unfold IsRunFrom at h ⊢
  split at h
  . exact ⟨h.result, h.bindings, h.calls, h.trace⟩
  . exact ⟨h.result, h.bindings, h.calls, h.trace⟩

end IsRunFrom

namespace Engine

/-- The state in which the steps of an execution begin, once its bindings are seeded. -/
def opened (engine : Engine) (agent : Agent) (input : Json) (bindings : Bindings) (j : Journal)
    : RunState where
  bindings
  trace := (Trace.new engine.settings.traceCapacity).push
    ⟨.started agent.id agent.version, j.now⟩
  journal := (j.pastOrder.write (executionSpan agent)).writeAll (engine.seed agent input).2

theorem opened_trace_events (engine : Engine) (agent : Agent) (input : Json) (bindings : Bindings)
    (j : Journal)
    : (engine.opened agent input bindings j).trace.events
        =
      [⟨.started agent.id agent.version, j.now⟩] := by
  unfold opened Trace.new Trace.push
  dsimp only [List.length_nil]
  rw [if_neg (by omega)]
  rfl

variable {engine : Engine} {agent : Agent} {input : Json}

theorem execute_of_seed_error {error : ExecutionError}
    (h : (engine.seed agent input).1 = .error error) (j : Journal)
    : engine.execute agent input j
        =
      ⟨.error error, (engine.opened agent input {} j).write
        (.learned "agent_execution" ("success", Record.flag false))⟩ := by
  unfold execute
  dsimp only
  rw [h]
  rfl

theorem execute_of_seed_ok {bindings : Bindings} (h : (engine.seed agent input).1 = .ok bindings)
    (j : Journal)
    : let execution := engine.executeSeeded agent j.clock
        (engine.opened agent input (bindings.inOrder j.order) j)
      engine.execute agent input j
        =
      ⟨execution.result, execution.state.write
        (.learned "agent_execution" ("success", Record.flag execution.result.toBool))⟩ := by
  unfold execute
  dsimp only
  rw [h]
  rfl

theorem executeSeeded_isRunFrom (engine : Engine) (agent : Agent) (start : Nat) (s₀ : RunState)
    : (engine.executeSeeded agent start s₀).IsRunFrom engine agent s₀ := by
  unfold executeSeeded Execution.IsRunFrom
  generalize engine.runSteps agent.steps {} s₀ = ran
  obtain ⟨_ | error, p, s⟩ := ran
  . exact ⟨rfl, rfl, rfl, _, _, rfl⟩
  . exact ⟨rfl, rfl, rfl, _, _, rfl⟩

/-- An execution of an agent whose bindings can be seeded is the run of its steps. -/
theorem execute_isRunFrom {bindings : Bindings} (h : (engine.seed agent input).1 = .ok bindings)
    (j : Journal)
    : (engine.execute agent input j).IsRunFrom engine agent
        (engine.opened agent input (bindings.inOrder j.order) j) := by
  rw [execute_of_seed_ok h j]
  apply Execution.IsRunFrom.write
  apply executeSeeded_isRunFrom

theorem runSteps_of_execute_ok {value : Json} {j : Journal}
    (h : (engine.execute agent input j).result = .ok value)
    : ∃ bindings p s,
        (engine.seed agent input).1 = .ok bindings ∧
        engine.runSteps agent.steps {} (engine.opened agent input (bindings.inOrder j.order) j)
          =
        (none, p, s) ∧
        value = engine.outputs agent s.bindings p.lastSaved ∧
        (engine.execute agent input j).state.bindings = s.bindings := by
  cases hseed : (engine.seed agent input).1 with
  | error error =>
    rw [execute_of_seed_error hseed] at h
    cases h
  | ok bindings =>
    have hexecute := execute_isRunFrom hseed j
    cases hrun : engine.runSteps agent.steps {}
      (engine.opened agent input (bindings.inOrder j.order) j) with
    | mk failure rest =>
      obtain ⟨p, s⟩ := rest
      cases failure with
      | some error =>
        rw [(hexecute.of_error hrun).result] at h
        cases h
      | none =>
        have hends := hexecute.of_none hrun
        rw [hends.result] at h
        cases h
        exact ⟨bindings, p, s, rfl, hrun, rfl, hends.bindings⟩

theorem execute_of_seed {bindings : Bindings}
    (h : (engine.seed agent input).1 = .ok bindings) (j : Journal)
    : ∃ s₀ : RunState,
        s₀.bindings = bindings.inOrder j.order ∧
        s₀.journal.calls = j.calls ∧
        s₀.trace = (Trace.new engine.settings.traceCapacity).push
          ⟨.started agent.id agent.version, j.now⟩ ∧
        (engine.execute agent input j).IsRunFrom engine agent s₀ :=
  ⟨engine.opened agent input (bindings.inOrder j.order) j, rfl, rfl, rfl, execute_isRunFrom h j⟩

end Engine

end Runbook
