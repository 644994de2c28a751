import Runbook.Proofs.Run.Calls
import Runbook.Proofs.Session.Operation

/-!
This module contains how far a session gets when it is let go on: the steps that it runs, what makes
it stop, and where it stands then.
-/

namespace Runbook

namespace Engine

open Agent

/--
The steps that a run with breakpoints comes to run, up to the first failure that ends it. The
breakpoint of the first step does not count if the run was paused there.
-/
def stepsReached (engine : Engine) (fields : List LogField) (breakpoints : List String)
    (paused : Bool) : List Step → RunState → List Step
  | [], _ => []
  | step :: rest, s =>
    if !paused && breakpoints.contains step.id then
      []
    else
      match engine.advance fields step s with
      | (.ok _, s) => step :: stepsReached engine fields breakpoints false rest s
      | (.error _, _) => [step]

def advanceAll (engine : Engine) (fields : List LogField) (steps : List Step) (s : RunState)
    : RunState :=
  steps.foldl (fun s step => (engine.advance fields step s).2) s

variable {engine : Engine} {fields : List LogField} {breakpoints : List String} {paused : Bool}

theorem eq_zero_of_stepsReached {steps : List Step} {s : RunState} {i : Nat} {step : Step}
    (h : (engine.stepsReached fields breakpoints paused steps s)[i]? = some step)
    (hbreak : step.id ∈ breakpoints)
    : i = 0 ∧ paused = true ∧ steps.head? = some step := by
  induction steps generalizing paused s i with
  | nil => simp [stepsReached] at h
  | cons first rest ih =>
    unfold stepsReached at h
    split at h
    . simp at h
    . next hpass =>
      -- a later step is run by a run that goes on, which was not paused at it
      have hfirst (hstep : first = step) : paused = true ∧ (first :: rest).head? = some step := by
        rw [hstep] at hpass
        refine ⟨?_, congrArg some hstep⟩
        simpa [hbreak] using hpass
      cases i with
      | zero =>
        refine ⟨rfl, hfirst ?_⟩
        split at h <;> simpa using h
      | succ i =>
        split at h
        . rw [List.getElem?_cons_succ] at h
          cases (ih h).2.1
        . simp at h

theorem advanceAll_adds (steps : List Step) (s : RunState)
    : Journal.Adds (fun call => ∃ step ∈ steps, call.IsFor step) s.journal
        (engine.advanceAll fields steps s).journal := by
  induction steps generalizing s with
  | nil => exact .of_eq rfl
  | cons step rest ih =>
    apply Journal.Adds.trans
    . apply (engine.advance_adds fields step s).mono
      intro call hcall
      exact ⟨step, List.mem_cons_self .., hcall⟩
    . apply (ih (engine.advance fields step s).2).mono
      rintro call ⟨other, hmem, hcall⟩
      exact ⟨other, List.mem_cons_of_mem step hmem, hcall⟩

end Engine

namespace Session

/-- What a run of a session's steps has done: `ran` was run, and `left` was not. -/
structure Reaches (engine : Engine) (steps : List Agent.Step) (session : Session) (j : Journal)
    (run : Halt × Session × Journal) (ran left : List Agent.Step) : Prop where
  split : steps = ran ++ left
  state : run.2.1.runState run.2.2 = engine.advanceAll [session.field] ran (session.runState j)
  stop :
    match run.1 with
    | .breakpoint step =>
      run.2.1.cursor = session.cursor + ran.length ∧ left.head?.map (·.id) = some step
    | .failure _ => ran ≠ [] ∧ run.2.1.cursor + 1 = session.cursor + ran.length
    | .finished => run.2.1.cursor = session.cursor + ran.length ∧ left = []

theorem runSteps_reaches (engine : Engine) (paused : Bool) (steps : List Agent.Step)
    (session : Session) (j : Journal)
    : ∃ left,
        Reaches engine steps session j (runSteps engine paused steps session j)
          (engine.stepsReached [session.field] session.breakpoints paused steps (session.runState j))
          left := by
  induction steps generalizing paused session j with
  | nil => exact ⟨[], rfl, rfl, rfl, rfl⟩
  | cons step rest ih =>
    unfold runSteps Engine.stepsReached
    split
    . exact ⟨step :: rest, rfl, rfl, rfl, rfl⟩
    . cases hadvance : engine.advance [session.field] step (session.runState j) with
      | mk result s =>
      have hs : (engine.advance [session.field] step (session.runState j)).2 = s :=
        congrArg Prod.snd hadvance
      cases result with
      | error error =>
        refine ⟨rest, rfl, ?_, List.cons_ne_nil step [], rfl⟩
        rw [Engine.advanceAll, List.foldl_cons, hs]
        rfl
      | ok outcome =>
        have hrest : ∃ left, Reaches engine rest ((session.adopt s).pass step outcome) s.journal
            (runSteps engine false rest ((session.adopt s).pass step outcome) s.journal)
            (engine.stepsReached [session.field] session.breakpoints false rest s) left := ih ..
        obtain ⟨left, hsplit, hstate, hstop⟩ := hrest
        refine ⟨left, ?_, ?_, ?_⟩
        . exact congrArg (step :: ·) hsplit
        . rw [Engine.advanceAll, List.foldl_cons, hs]
          exact hstate
        . dsimp only
          have hcursor : ((session.adopt s).pass step outcome).cursor = session.cursor + 1 := rfl
          rw [hcursor] at hstop
          split at hstop
          . exact ⟨by rw [hstop.1, List.length_cons]; omega, hstop.2⟩
          . rw [List.length_cons]
            refine ⟨by simp, ?_⟩
            have := hstop.2
            omega
          . exact ⟨by rw [hstop.1, List.length_cons]; omega, hstop.2⟩

def begun (session : Session) (j : Journal) : RunState :=
  (session.begin j).1.runState (session.begin j).2

/-- The steps that a session runs when it is let go on. -/
def stepsRun (engine : Engine) (session : Session) (j : Journal) : List Agent.Step :=
  if session.status.canProceed then
    engine.stepsReached [session.field] session.breakpoints (session.status = .pausedAtBreakpoint)
      session.remaining (session.begun j)
  else
    []

/-- What a session that is let go on has become when the run of its steps stops. -/
structure Reached (engine : Engine) (session : Session) (j : Journal) (halt : Halt) (ran : Session)
    (k : Journal) : Prop where
  waited : session.status.canProceed
  frame : ∃ bindings trace lastSaved cursor,
    ran = { session with bindings, trace, lastSaved, cursor, status := .running }
  reaches : ∃ left,
    Reaches engine session.remaining (session.begin j).1 (session.begin j).2 (halt, ran, k)
      (session.stepsRun engine j) left

/-- What can become of a session that is let go on, and how it is answered. -/
inductive Proceeds (engine : Engine) (session : Session) (j : Journal)
    : Except SessionError Unit × Session × Journal → Prop where
  | refused (h : session.status.canProceed = false)
    : Proceeds engine session j (.error (.invalidState "continue" session.status.name), session, j)
  | pausedAtStep (step : String) (ran : Session) (k : Journal)
    (reached : session.Reached engine j (.breakpoint step) ran k)
    : Proceeds engine session j (.ok (), ran.pause (some step) .pausedAtBreakpoint k)
  | failed (error : ExecutionError) (ran : Session) (k : Journal)
    (reached : session.Reached engine j (.failure error) ran k)
    : Proceeds engine session j (.error (.execution error), ran.fail j.clock error k)
  | pausedAtEnd (ran : Session) (k : Journal) (reached : session.Reached engine j .finished ran k)
    (h : endBreakpoint ∈ session.breakpoints ∧ session.status ≠ .pausedAtEnd)
    : Proceeds engine session j (.ok (), ran.pause none .pausedAtEnd k)
  | completed (ran : Session) (k : Journal) (reached : session.Reached engine j .finished ran k)
    (h : endBreakpoint ∈ session.breakpoints → session.status = .pausedAtEnd)
    : Proceeds engine session j (.ok (), ran.complete engine j.clock k)

theorem begin_kept (session : Session) (j : Journal)
    : (session.begin j).1.field = session.field ∧
      (session.begin j).1.breakpoints = session.breakpoints ∧
      (session.begin j).1.cursor = session.cursor := by
  obtain ⟨_, hframe⟩ := session.begin_frame j
  rw [hframe]
  exact ⟨rfl, rfl, rfl⟩

theorem runSteps_reached (engine : Engine) {session : Session} (j : Journal)
    (h : session.status.canProceed)
    : let run := runSteps engine (session.status = .pausedAtBreakpoint) session.remaining
        (session.begin j).1 (session.begin j).2
      session.Reached engine j run.1 run.2.1 run.2.2 := by
  refine ⟨h, runSteps_begin_frame engine _ session j, ?_⟩
  obtain ⟨left, reaches⟩ := runSteps_reaches engine (session.status = .pausedAtBreakpoint)
    session.remaining (session.begin j).1 (session.begin j).2
  obtain ⟨hfield, hbreakpoints, _⟩ := session.begin_kept j
  rw [hfield, hbreakpoints] at reaches
  refine ⟨left, ?_⟩
  unfold stepsRun
  rw [if_pos h]
  exact reaches

theorem proceeds (engine : Engine) (session : Session) (j : Journal)
    : session.Proceeds engine j (session.proceed engine j) := by
  by_cases hwait : session.status.canProceed
  . rw [proceed_eq_conclude engine session j hwait]
    have reached := runSteps_reached engine j hwait
    generalize runSteps engine (session.status = .pausedAtBreakpoint) session.remaining
      (session.begin j).1 (session.begin j).2 = run at reached
    obtain ⟨halt, ran, k⟩ := run
    dsimp only at reached
    cases halt with
    | breakpoint step => exact .pausedAtStep step ran k reached
    | failure error => exact .failed error ran k reached
    | finished =>
      have hbreakpoints : ran.breakpoints = session.breakpoints := by
        obtain ⟨_, _, _, _, hframe⟩ := reached.frame
        rw [hframe]
      unfold conclude
      dsimp only
      rw [hbreakpoints]
      split
      . next hpause => exact .pausedAtEnd ran k reached (by simpa [and_comm] using hpause)
      . next hgo =>
        apply Proceeds.completed ran k reached
        intro hbreak
        simpa [hbreak] using hgo
  . unfold proceed
    rw [if_neg hwait]
    exact .refused (by simpa using hwait)

end Session

end Runbook
