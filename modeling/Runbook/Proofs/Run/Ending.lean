import Runbook.Proofs.Run.Account

/-!
This module contains what the trace of an execution tells of its end: once, as the newest event, and
with the right flag, provided that the bindings could be seeded. An execution that fails before its
first step leaves a trace that tells of its beginning only.
-/

namespace Runbook

namespace Engine

open Agent

variable {engine : Engine} {agent : Agent} {input : Json} {bindings : Bindings}

theorem execute_success (h : (engine.seed agent input).1 = .ok bindings) (j : Journal)
    : ∃ success duration time,
        (engine.execute agent input j).state.trace
          =
        (Trace.new engine.settings.traceCapacity).pushAll
          (⟨.started agent.id agent.version, j.now⟩ ::
            (engine.accountOf agent input j).map Prod.snd ++
            [⟨.finished success duration, time⟩]) ∧
        (success = true
          ↔
        (∃ value, (engine.execute agent input j).result = .ok value) ∧
          ∀ entry ∈ engine.accountOf agent input j, entry.2.what.isFailure = false) := by
  have hexecute := execute_isRunFrom h j
  let s₀ := engine.opened agent input (bindings.inOrder j.order) j
  have htrace := engine.runSteps_trace agent.steps {} s₀
  have hfailed := engine.failedSteps_eq agent.steps s₀
  rw [accountOf_of_seed h]
  cases hrun : engine.runSteps agent.steps {} s₀ with
  | mk failure rest =>
    obtain ⟨p, s⟩ := rest
    rw [hrun] at htrace
    dsimp only at htrace
    cases failure with
    | some error =>
      have hends := hexecute.of_error hrun
      obtain ⟨duration, time, hend⟩ := hends.trace
      refine ⟨false, duration, time, ?_, ?_⟩
      . rw [hend, htrace]
        simp [Trace.pushAll, opened, s₀]
      . simp [hends.result]
    | none =>
      have hends := hexecute.of_none hrun
      obtain ⟨duration, time, hend⟩ := hends.trace
      refine ⟨!p.failed, duration, time, ?_, ?_⟩
      . rw [hend, htrace]
        simp [Trace.pushAll, opened, s₀]
      . rw [runSteps_failed hrun, hfailed]
        simp [hends.result, List.isEmpty_iff, List.filter_eq_nil_iff, s₀]

end Engine

/--
An execution whose trace tells of its end once, as the newest event, and of a success exactly if
there is a result and no step has failed.
-/
def Execution.IsClosed (execution : Execution) (account : List (Agent.Step × Event)) : Prop :=
  ∃ earlier success duration time,
    execution.state.trace.events = earlier ++ [⟨.finished success duration, time⟩] ∧
    (∀ event ∈ earlier, event.what.isEnd = false) ∧
    (success = true
      ↔
    (∃ value, execution.result = .ok value) ∧
      ∀ entry ∈ account, entry.2.what.isFailure = false)

theorem Execution.not_isClosed_of_started {execution : Execution} {agent version : String}
    {time : Moment} (h : execution.state.trace.events = [⟨.started agent version, time⟩])
    (account : List (Agent.Step × Event))
    : ¬ execution.IsClosed account := by
  intro ⟨earlier, success, duration, time, hevents, _, _⟩
  have hlast := congrArg List.getLast? (h.symm.trans hevents)
  rw [List.getLast?_append] at hlast
  simp at hlast

namespace Engine

open Agent

/-- Executions are closed exactly if their bindings could be seeded. -/
theorem execute_isClosed_iff (engine : Engine) (agent : Agent) (input : Json) (j : Journal)
    : (engine.execute agent input j).IsClosed (engine.accountOf agent input j)
        ↔
      ∃ bindings, (engine.seed agent input).1 = .ok bindings := by
  constructor
  . intro hclosed
    cases hseed : (engine.seed agent input).1 with
    | ok bindings => exact ⟨bindings, rfl⟩
    | error error =>
      rw [execute_of_seed_error hseed j] at hclosed
      have hopened := opened_trace_events engine agent input {} j
      exact absurd hclosed (Execution.not_isClosed_of_started hopened _)
  . intro ⟨bindings, hseed⟩
    obtain ⟨success, duration, time, htrace, hsuccess⟩ := execute_success hseed j
    obtain ⟨earlier, hearlier, hevents⟩ := Trace.pushAll_new_append engine.settings.traceCapacity
      (⟨.started agent.id agent.version, j.now⟩ :: (engine.accountOf agent input j).map Prod.snd)
      ⟨.finished success duration, time⟩
    refine ⟨earlier, success, duration, time, by rw [htrace, hevents], ?_, hsuccess⟩
    intro event hevent
    obtain rfl | hmem := List.mem_cons.mp (hearlier hevent)
    . rfl
    . obtain ⟨entry, hentry, rfl⟩ := List.mem_map.mp hmem
      rw [accountOf_of_seed hseed] at hentry
      exact account_isEnd engine agent.steps _ entry hentry

def demanding : Agent where
  id := "demanding"
  version := "1.0"
  vars := [{ name := "name", required := true }]

theorem not_isClosed_of_missing_variable
    : let engine : Engine := { secrets := fun _ => none }
      let execution := engine.execute demanding .null {}
      execution.result = .error (.missingVariable "name") ∧
      execution.state.trace.events = [⟨.started "demanding" "1.0", ⟨0⟩⟩] ∧
      ¬ execution.IsClosed (engine.accountOf demanding .null {}) := by
  have hevents : (execute { secrets := fun _ => none } demanding .null {}).state.trace.events
      = [⟨.started "demanding" "1.0", ⟨0⟩⟩] := rfl
  exact ⟨rfl, hevents, Execution.not_isClosed_of_started hevents _⟩

end Engine

end Runbook
