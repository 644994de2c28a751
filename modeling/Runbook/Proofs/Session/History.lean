import Runbook.Proofs.Run.Reordered
import Runbook.Proofs.Session.Lockstep

/-!
This module contains the comparison of the trace of a session with the trace of an execution. Both
tell the same up to the end of the run; what they tell of the end differs if the run has outlived a
failure. A session is compared with an execution in the same order of the secrets first.
-/

namespace Runbook

namespace Session

theorem runSteps_halt_ne_breakpoint (engine : Engine) (paused : Bool) (steps : List Agent.Step)
    (session : Session) (j : Journal) (h : session.breakpoints = []) (step : String)
    : (runSteps engine paused steps session j).1 ≠ .breakpoint step := by
  induction steps generalizing paused session j with
  | nil => simp [runSteps]
  | cons first rest ih =>
    unfold runSteps
    split
    . next hpause => simp [h] at hpause
    . split
      . apply ih
        exact h
      . simp

variable {engine : Engine} {session : Session} {j : Journal} {c₁ c₂ : List Call} {s₀ : RunState}

theorem proceed_history {execution : Execution} (even : Call.EquallyMany c₁ c₂)
    (ready : session.status = .ready) (nobreak : session.breakpoints = [])
    (start : session.remaining = session.agent.steps)
    (follows : Follows (Trace.SameHistory Eq) c₁ c₂ session j {} s₀)
    (hexecution : execution.IsRunFrom engine session.agent s₀)
    : ∃ earlier,
        (session.proceed engine j).2.1.trace.history
          =
        earlier ++ [.finished execution.result.toBool 0] ∧
        execution.state.trace.history
          =
        earlier ++
          [.finished
            (execution.result.toBool && (engine.failedSteps session.agent.steps s₀).isEmpty)
            0] := by
  rw [proceed_eq_conclude engine session j (by rw [ready]; rfl), start]
  have hbegin : session.begin j = session.moveTo .running j := by
    unfold begin
    rw [if_pos ready]
  have hfollows : Follows (Trace.SameHistory Eq) c₁ c₂ (session.begin j).1 (session.begin j).2 {} s₀ := by
    rw [hbegin]
    refine ⟨⟨follows.alike.bindings, ?_, follows.alike.trace⟩, follows.lastSaved⟩
    exact follows.alike.calls.congr rfl rfl
  obtain ⟨passed, left, p', s', lock⟩ := runSteps_lockstep even (Trace.timeless_sameHistory Eq) engine
    (session.status = .pausedAtBreakpoint) session.agent.steps (session.begin j).1
    (session.begin j).2 {} s₀ hfollows
  obtain ⟨_, _, _, _, hframe⟩ :=
    runSteps_begin_frame engine (session.status = .pausedAtBreakpoint) session j
  rw [start] at hframe
  -- without breakpoints the session runs to the end of its steps or to the failure that ends it
  have hhalt := runSteps_halt_ne_breakpoint engine (session.status = .pausedAtBreakpoint)
    session.agent.steps (session.begin j).1 (session.begin j).2 (by rw [hbegin]; exact nobreak)
  generalize runSteps engine (session.status = .pausedAtBreakpoint) session.agent.steps
    (session.begin j).1 (session.begin j).2 = run at lock hframe hhalt
  obtain ⟨halt, ran, k⟩ := run
  dsimp only at hframe
  obtain ⟨_, _, hlock, hrest⟩ := lock
  cases halt with
  | breakpoint step => exact absurd rfl (hhalt step)
  | failure error =>
    have hends := hexecution.of_error hrest.2
    obtain ⟨duration, time, htrace⟩ := hends.trace
    obtain ⟨earlier, hsession, hstate⟩ := hlock.alike.trace.push_eq
      ⟨.finished false (k.clock - j.clock), k.now⟩ ⟨.finished false duration, time⟩
    refine ⟨earlier, ?_, ?_⟩
    . rw [hends.result]
      exact hsession
    . rw [hends.result, htrace]
      exact hstate
  | finished =>
    have hfailed := Engine.runSteps_failed hrest.2
    have hends := hexecution.of_none hrest.2
    obtain ⟨duration, time, htrace⟩ := hends.trace
    have hbreakpoints : ran.breakpoints = [] := by
      rw [hframe]
      exact nobreak
    obtain ⟨earlier, hsession, hstate⟩ := hlock.alike.trace.push_eq
      ⟨.finished true (k.clock - j.clock), k.now⟩ ⟨.finished (!p'.failed) duration, time⟩
    refine ⟨earlier, ?_, ?_⟩
    . rw [hends.result]
      unfold conclude
      dsimp only
      rw [hbreakpoints]
      rw [if_neg (by simp)]
      exact hsession
    . rw [hends.result, htrace, hstate, hfailed]
      simp [Happening.timeless, Except.toBool]

end Session

namespace Sessions

open Session

/--
A session without breakpoints that is let go on once tells the same as an execution of its agent,
except that it always tells of a success at its end if it has come to the outputs. So the histories
are the same unless steps have failed on the way to the outputs, or errors show overlapping secrets
in different orders.
-/
theorem history_eq_iff {t : Sessions} {agent : Agent} {input : Json} {bindings : Bindings}
    (fresh : t.Fresh) (seeded : (t.engine.seed agent input).1 = .ok bindings) {j : Journal}
    (even : Call.EquallyMany t.journal.calls j.calls)
    : let execution := t.engine.execute agent input j
      let failed := t.engine.failedSteps agent.steps { bindings, journal := j }
      ∃ id t' trace told told',
        t.startAgent agent input = (.ok id, t') ∧
        ((t'.proceed id).2.trace id).1 = .ok trace ∧
        trace.history = told ++ [.finished execution.result.toBool 0] ∧
        execution.state.trace.history
          =
        told' ++ [.finished (execution.result.toBool && failed.isEmpty) 0] ∧
        List.Forall₂
          (Happening.ToldAlike (Bindings.FromSeed agent.steps bindings t.journal.order j.order))
          told told' ∧
        (SecretOrder.Immaterial agent.steps bindings t.journal.order j.order → told = told') ∧
        (trace.history = execution.state.trace.history
          ↔
        told = told' ∧ ¬ (execution.result.toBool ∧ failed ≠ [])) := by
  dsimp only
  obtain ⟨time, t', hstart, hfind, hcalls, hengine, _⟩ := startAgent_of_seed fresh seeded
  let j' : Journal := { j with orders := t.journal.orders }
  obtain ⟨s₀, hs₀, hs₀calls, hs₀trace, hexecute⟩ := Engine.execute_of_seed seeded j'
  have hfailed : t.engine.failedSteps agent.steps { bindings, journal := j }
      = t.engine.failedSteps agent.steps s₀ := by
    have even : Call.EquallyMany j.calls j.calls := fun _ => rfl
    apply Engine.failedSteps_alike even (Trace.timeless_any Bindings.Reordered)
    . exact fun step _ => Bindings.keeps_reordered step
    . refine ⟨?_, ⟨[], by simp, by simp [hs₀calls, j']⟩, trivial⟩
      rw [hs₀]
      exact ⟨rfl, rfl⟩
  have hfollows : Follows (Trace.SameHistory Eq) t.journal.calls j.calls
      { t.opened agent bindings time with lastUsed := t'.idleClock } t'.journal {} s₀ := by
    refine ⟨⟨hs₀.symm, ⟨[], by simp [runState, hcalls], by simp [hs₀calls, j']⟩, ?_⟩, rfl⟩
    rw [hs₀trace]
    exact Trace.timeless_sameHistory Eq _ _ _ _ ⟨.nil, rfl, rfl⟩ (.same _)
  obtain ⟨told, hsession, hexecution'⟩ := proceed_history even rfl rfl rfl hfollows hexecute
  have hagent : { t.opened agent bindings time with lastUsed := t'.idleClock }.agent
      = agent := rfl
  rw [hagent, ← hfailed] at hexecution'
  -- what is told in one order of the secrets becomes what is told in the other
  obtain ⟨hresult, hstate⟩ := Engine.execute_alike seeded j' j fun _ => rfl
  have hhistory := hstate.trace.history
  rw [hexecution'] at hhistory
  obtain ⟨told', htold, hexecution⟩ := Happening.exists_of_forall₂_finished hhistory
  rw [hresult.toBool_eq] at hsession hexecution
  refine ⟨⟨t.started⟩, t', _, told, told', hstart, ?_, hsession, hexecution, htold, ?_, ?_⟩
  . have hproceed := find?_perform_act t' ⟨t.started⟩ ⟨t.started⟩ .proceed
    rw [hfind, if_pos rfl, hengine] at hproceed
    have hperform : (t'.proceed ⟨t.started⟩).2 = (t'.perform (.act ⟨t.started⟩ .proceed)).2 := rfl
    rw [hperform]
    simp only [trace, use, hproceed, Option.map_some]
    rfl
  . intro himmaterial
    exact Happening.eq_of_forall₂_toldAlike htold fun _ _ h => h.mask_eq himmaterial
  . rw [hsession, hexecution, ← List.concat_eq_append, ← List.concat_eq_append, List.concat_inj]
    cases (t.engine.execute agent input j).result.toBool <;> simp

def broken (policy : FailurePolicy) : Sessions where
  engine :=
    { registry := Registry.register {} "tool" none fun _ _ => { result := .error (.root "down") }
      settings := { failurePolicy := policy }
      secrets := fun _ => none }

def oneCall : Agent where
  id := "one-call"
  version := "1.0"
  steps := [{ id := "only", kind := "tool" }]

theorem history_eq_of_abort
    : ∃ id t' trace,
        (broken .abort).startAgent oneCall .null = (.ok id, t') ∧
        ((t'.proceed id).2.trace id).1 = .ok trace ∧
        trace.history = ((broken .abort).engine.execute oneCall .null {}).state.trace.history := by
  have fresh : (broken .abort).Fresh := fresh_of_live_nil rfl
  have seeded : ((broken .abort).engine.seed oneCall .null).1 = .ok {} := rfl
  obtain ⟨id, t', trace, _, _, hstart, htrace, _, _, _, htold, hiff⟩ :=
    history_eq_iff fresh seeded (j := {}) (fun _ => rfl)
  refine ⟨id, t', trace, hstart, htrace, hiff.mpr ⟨htold (.inl rfl), ?_⟩⟩
  rintro ⟨hok, _⟩
  revert hok
  decide

theorem history_ne_of_continue
    : ∃ id t' trace,
        (broken .continue).startAgent oneCall .null = (.ok id, t') ∧
        ((t'.proceed id).2.trace id).1 = .ok trace ∧
        let earlier :=
          [.started "one-call" "1.0",
            .stepFailed "only" 1 0 "step 'only' failed after 1 attempt(s): down"]
        let execution := (broken .continue).engine.execute oneCall .null {}
        trace.history = earlier ++ [.finished true 0] ∧
        execution.state.trace.history = earlier ++ [.finished false 0] ∧
        trace.history ≠ execution.state.trace.history := by
  refine ⟨⟨0⟩, ((broken .continue).startAgent oneCall .null).2, _, rfl, rfl, ?_, ?_, ?_⟩
  . decide
  . decide
  . decide

end Sessions

end Runbook
