import Runbook.Proofs.Run.Alike
import Runbook.Proofs.Session.Operation

/-!
This module contains the comparison of the steps that a session runs with the steps that an
execution runs. Both go through the same states, and the execution can always go on from where the
session has stopped.
-/

namespace Runbook

namespace Session

/-- A session that has come as far as an execution with the given progress and state. -/
structure Follows (T : Trace → Trace → Prop) (c₁ c₂ : List Call) (session : Session) (j : Journal)
    (p : Progress) (s : RunState) : Prop where
  alike : RunState.Alike Eq T c₁ c₂ (session.runState j) s
  lastSaved : session.lastSaved = p.lastSaved

/--
What a session's run of steps has in common with an execution's: the steps that are behind it are
behind an execution too, which has the steps that are left still before it.
-/
structure Lockstep (T : Trace → Trace → Prop) (c₁ c₂ : List Call) (engine : Engine)
    (paused : Bool) (steps : List Agent.Step) (p : Progress) (s : RunState) (session : Session)
    (run : Halt × Session × Journal) (passed left : List Agent.Step) (p' : Progress)
    (s' : RunState) : Prop where
  split : steps = passed ++ left
  cursor : run.2.1.cursor = session.cursor + passed.length
  follows : Follows T c₁ c₂ run.2.1 run.2.2 p' s'
  rest :
    match run.1 with
    | .breakpoint step =>
      left.head?.map (·.id) = some step ∧ (paused = true → passed ≠ []) ∧
        engine.runSteps steps p s = engine.runSteps left p' s'
    | .failure error => left ≠ [] ∧ engine.runSteps steps p s = (some error, p', s')
    | .finished => left = [] ∧ engine.runSteps steps p s = (none, p', s')

variable {T : Trace → Trace → Prop} {c₁ c₂ : List Call}

theorem runSteps_lockstep (even : Call.EquallyMany c₁ c₂) (hT : Trace.Timeless Eq T)
    (engine : Engine) (paused : Bool) (steps : List Agent.Step) (session : Session) (j : Journal)
    (p : Progress) (s : RunState) (h : Follows T c₁ c₂ session j p s)
    : ∃ passed left p' s',
        Lockstep T c₁ c₂ engine paused steps p s session (runSteps engine paused steps session j)
          passed left p' s' := by
  -- one step of the session is one step of the execution; a breakpoint leaves the rest to both
  induction steps generalizing paused session j p s with
  | nil => exact ⟨[], [], p, s, rfl, rfl, h, rfl, rfl⟩
  | cons step rest ih =>
    unfold runSteps
    split
    . next hpause => exact ⟨[], step :: rest, p, s, rfl, rfl, h, rfl, by simp_all, rfl⟩
    . obtain ⟨hresult, hstate⟩ :=
        Engine.advance_same even hT engine [session.field] [] step h.alike
      cases hadvance : engine.advance [] step s with
      | mk outcome₂ s₂ =>
      rw [hadvance] at hresult hstate
      generalize engine.advance [session.field] step (session.runState j) = advanced
        at hresult hstate
      obtain ⟨result, s₁⟩ := advanced
      dsimp only at hresult hstate
      subst hresult
      cases result with
      | error error =>
        have hrun : engine.runSteps (step :: rest) p s = (some error, p, s₂) := by
          rw [Engine.runSteps, hadvance]
        exact ⟨[], step :: rest, p, s₂, rfl, rfl, ⟨hstate, h.lastSaved⟩, by simp, hrun⟩
      | ok outcome =>
        have hrun : engine.runSteps (step :: rest) p s =
            engine.runSteps rest (p.add step outcome) s₂ := by
          rw [Engine.runSteps, hadvance]
        have hfollows : Follows T c₁ c₂ ((session.adopt s₁).pass step outcome) s₁.journal
            (p.add step outcome) s₂ := by
          constructor
          . exact hstate
          . exact Progress.lastSaved_add_congr h.lastSaved step outcome
        obtain ⟨passed, left, p', s', lock⟩ := ih false _ _ _ _ hfollows
        refine ⟨step :: passed, left, p', s', ?_, ?_, lock.follows, ?_⟩
        . rw [lock.split]
          rfl
        . rw [lock.cursor]
          simp only [pass, adopt, List.length_cons]
          omega
        . rw [hrun]
          have hrest := lock.rest
          dsimp only
          split at hrest
          . exact ⟨hrest.1, by simp, hrest.2.2⟩
          . exact hrest
          . exact hrest

end Session

end Runbook
