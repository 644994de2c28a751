import Runbook.Proofs.Run.Reordered
import Runbook.Proofs.Session.Lockstep

/-!
This module contains the reason why breakpoints do not change what an agent computes: wherever a
session waits, an execution of its agent can go on from there to the end that it has anyway. A
session is compared with an execution in the same order of the secrets first.
-/

namespace Runbook

namespace Session

/-- An action that lets a session go on, or that leaves alone what its steps get to see. -/
def Action.isHarmless : Action → Bool
  | setVariable _ _ => false
  | _ => true

/--
How a session stands to the run of its agent's steps that an execution makes from the state `s₀`: it
is on the way to the end of that run, or it has come to it.
-/
inductive OnTrack (engine : Engine) (agent : Agent) (c₁ c₂ : List Call) (s₀ : RunState)
    (session : Session) (j : Journal) : Prop where
  | waiting (p : Progress) (s : RunState)
      (agent_eq : session.agent = agent)
      (status : session.status.canProceed)
      (unended : session.result = none ∧ session.error = none)
      (follows : Follows Trace.Any c₁ c₂ session j p s)
      (rest : engine.runSteps session.remaining p s = engine.runSteps agent.steps {} s₀)
      (atBreakpoint : session.status = .pausedAtBreakpoint → session.remaining ≠ [])
      (atEnd : session.status = .pausedAtEnd → session.remaining = [])
  | completed (p : Progress) (s : RunState)
      (agent_eq : session.agent = agent)
      (status : session.status = .completed)
      (ended : engine.runSteps agent.steps {} s₀ = (none, p, s))
      (alike : RunState.Alike Eq Trace.Any c₁ c₂ (session.runState j) s)
      (result : session.result = some (engine.outputs agent s.bindings p.lastSaved))
      (error : session.error = none)
  | failed (error : ExecutionError) (p : Progress) (s : RunState)
      (agent_eq : session.agent = agent)
      (status : session.status = .failed)
      (ended : engine.runSteps agent.steps {} s₀ = (some error, p, s))
      (alike : RunState.Alike Eq Trace.Any c₁ c₂ (session.runState j) s)
      (result : session.result = none)
      (error_eq : session.error = some (s.bindings.maskText error.message))

/-- The number of times a session has to be let go on until it is at its end. -/
def patience (session : Session) : Nat :=
  match session.status with
  | .ready => session.remaining.length + 2
  | .pausedAtBreakpoint => session.remaining.length + 1
  | .pausedAtEnd => 1
  | _ => 0

variable {engine : Engine} {agent : Agent} {c₁ c₂ : List Call} {s₀ : RunState}
  {session : Session} {j : Journal}

theorem alike_any_congr {s s₁ s₂ : RunState} (h : RunState.Alike Eq Trace.Any c₁ c₂ s₁ s)
    (hbindings : s₂.bindings = s₁.bindings) (hcalls : s₂.journal.calls = s₁.journal.calls)
    : RunState.Alike Eq Trace.Any c₁ c₂ s₂ s := by
  refine ⟨?_, h.calls.congr hcalls rfl, trivial⟩
  rw [hbindings]
  exact h.bindings

theorem OnTrack.congr (h : OnTrack engine agent c₁ c₂ s₀ session j) (breakpoints : List String)
    (lastUsed : Nat) {k : Journal} (hk : k.calls = j.calls)
    : OnTrack engine agent c₁ c₂ s₀ { session with breakpoints, lastUsed } k := by
  cases h with
  | waiting p s agent_eq status unended follows rest atBreakpoint atEnd =>
    have hfollows : Follows Trace.Any c₁ c₂ { session with breakpoints, lastUsed } k p s :=
      ⟨alike_any_congr follows.alike rfl hk, follows.lastSaved⟩
    exact .waiting p s agent_eq status unended hfollows rest atBreakpoint atEnd
  | completed p s agent_eq status ended alike result error =>
    exact .completed p s agent_eq status ended (alike_any_congr alike rfl hk) result error
  | failed error p s agent_eq status ended alike result error_eq =>
    exact .failed error p s agent_eq status ended (alike_any_congr alike rfl hk) result
      error_eq

theorem patience_pos (h : session.status.canProceed) : 0 < session.patience := by
  unfold patience
  obtain hstatus | hstatus | hstatus := SessionStatus.canProceed_iff.mp h <;> rw [hstatus]
  . exact Nat.succ_pos _
  . exact Nat.succ_pos _
  . exact Nat.one_pos

theorem OnTrack.isTerminal_of_patience (h : OnTrack engine agent c₁ c₂ s₀ session j)
    (hpatience : session.patience = 0)
    : session.status.isTerminal := by
  cases h with
  | waiting p s agent_eq status unended follows rest atBreakpoint atEnd =>
    have hpos := patience_pos status
    omega
  | completed p s agent_eq status ended alike result error =>
    rw [status]
    rfl
  | failed error p s agent_eq status ended alike result error_eq =>
    rw [status]
    rfl

theorem lt_patience_of_left {passed left : List Agent.Step} (h : session.status.canProceed)
    (hsplit : session.remaining = passed ++ left) (hleft : left ≠ [])
    (hpassed : session.status = .pausedAtBreakpoint → passed ≠ [])
    (hend : session.status = .pausedAtEnd → session.remaining = [])
    : left.length + 1 < session.patience := by
  have hlength := congrArg List.length hsplit
  rw [List.length_append] at hlength
  unfold patience
  obtain hstatus | hstatus | hstatus := SessionStatus.canProceed_iff.mp h <;> rw [hstatus]
  . dsimp only
    omega
  . have := List.length_pos_iff.mpr (hpassed hstatus)
    dsimp only
    omega
  . rw [hend hstatus] at hsplit
    exact absurd (List.append_eq_nil_iff.mp hsplit.symm).2 hleft

theorem one_lt_patience (h : session.status.canProceed) (hend : session.status ≠ .pausedAtEnd)
    (hbreakpoint : session.status = .pausedAtBreakpoint → session.remaining ≠ [])
    : 1 < session.patience := by
  unfold patience
  obtain hstatus | hstatus | hstatus := SessionStatus.canProceed_iff.mp h
  . rw [hstatus]
    dsimp only
    omega
  . have := List.length_pos_iff.mpr (hbreakpoint hstatus)
    rw [hstatus]
    dsimp only
    omega
  . exact absurd hstatus hend

theorem remaining_of_append {ran : Session} {passed left : List Agent.Step}
    (hagent : ran.agent = session.agent) (hsplit : session.remaining = passed ++ left)
    (hcursor : ran.cursor = session.cursor + passed.length)
    : ran.remaining = left := by
  unfold remaining at *
  rw [hagent, hcursor]
  rw [← List.drop_drop, hsplit]
  simp

section Stops

variable {p : Progress} {s : RunState}

theorem OnTrack.pause (agent_eq : session.agent = agent)
    (unended : session.result = none ∧ session.error = none)
    (follows : Follows Trace.Any c₁ c₂ session j p s)
    (rest : engine.runSteps session.remaining p s = engine.runSteps agent.steps {} s₀)
    (step : Option String) {status : SessionStatus} (hstatus : status.canProceed)
    (atBreakpoint : status = .pausedAtBreakpoint → session.remaining ≠ [])
    (atEnd : status = .pausedAtEnd → session.remaining = [])
    : OnTrack engine agent c₁ c₂ s₀ (session.pause step status j).1
        (session.pause step status j).2 := by
  have hfollows : Follows Trace.Any c₁ c₂ (session.pause step status j).1
      (session.pause step status j).2 p s :=
    ⟨alike_any_congr follows.alike rfl rfl, follows.lastSaved⟩
  exact .waiting p s agent_eq hstatus unended hfollows rest atBreakpoint atEnd

theorem OnTrack.fail (agent_eq : session.agent = agent) (unended : session.result = none)
    (follows : Follows Trace.Any c₁ c₂ session j p s) {error : ExecutionError}
    (ended : engine.runSteps agent.steps {} s₀ = (some error, p, s)) (start : Nat)
    : OnTrack engine agent c₁ c₂ s₀ (session.fail start error j).1
        (session.fail start error j).2 := by
  refine .failed error p s agent_eq rfl ended (alike_any_congr follows.alike rfl rfl) unended ?_
  rw [← follows.alike.bindings]
  rfl

theorem OnTrack.complete (agent_eq : session.agent = agent) (unended : session.error = none)
    (follows : Follows Trace.Any c₁ c₂ session j p s)
    (ended : engine.runSteps agent.steps {} s₀ = (none, p, s)) (start : Nat)
    : OnTrack engine agent c₁ c₂ s₀ (session.complete engine start j).1
        (session.complete engine start j).2 := by
  refine .completed p s agent_eq rfl ended (alike_any_congr follows.alike rfl rfl) ?_ unended
  rw [← follows.alike.bindings, ← follows.lastSaved, ← agent_eq]
  rfl

end Stops

/-- A session that waits goes on along its track, and there is less of it left each time. -/
theorem OnTrack.proceed (even : Call.EquallyMany c₁ c₂)
    (h : OnTrack engine agent c₁ c₂ s₀ session j) (hwait : session.status.canProceed)
    : OnTrack engine agent c₁ c₂ s₀ (session.proceed engine j).2.1
        (session.proceed engine j).2.2 ∧
      (session.proceed engine j).2.1.patience < session.patience ∧
      ∀ error,
        (session.proceed engine j).1 = .error (.execution error)
          ↔
        (session.proceed engine j).2.1.status = .failed ∧
        (engine.runSteps agent.steps {} s₀).1 = some error := by
  cases h with
  | completed p s agent_eq status ended alike result error =>
    rw [status] at hwait
    cases hwait
  | failed error p s agent_eq status ended alike result error_eq =>
    rw [status] at hwait
    cases hwait
  | waiting p s agent_eq status unended follows rest atBreakpoint atEnd =>
    rw [proceed_eq_conclude engine session j hwait]
    obtain ⟨_, hbegin⟩ := session.begin_frame j
    have hfollows : Follows Trace.Any c₁ c₂ (session.begin j).1 (session.begin j).2 p s := by
      rw [hbegin]
      exact ⟨alike_any_congr follows.alike rfl rfl, follows.lastSaved⟩
    obtain ⟨passed, left, p', s', lock⟩ := runSteps_lockstep even (Trace.timeless_any Eq) engine
      (session.status = .pausedAtBreakpoint) session.remaining (session.begin j).1
      (session.begin j).2 p s hfollows
    obtain ⟨bindings, trace, lastSaved, cursor, hframe⟩ :=
      runSteps_begin_frame engine (session.status = .pausedAtBreakpoint) session j
    generalize runSteps engine (session.status = .pausedAtBreakpoint) session.remaining
      (session.begin j).1 (session.begin j).2 = run at lock hframe
    obtain ⟨halt, ran, k⟩ := run
    dsimp only at hframe
    have hagent : ran.agent = agent := by
      rw [hframe]
      exact agent_eq
    have hunended : ran.result = none ∧ ran.error = none := by
      rw [hframe]
      exact unended
    have hremaining : ran.remaining = left := by
      have hcursor : ran.cursor = session.cursor + passed.length := by
        rw [lock.cursor, hbegin]
      exact remaining_of_append (hagent.trans agent_eq.symm) lock.split hcursor
    obtain ⟨hsplit, _, hlock, hrest⟩ := lock
    unfold conclude
    cases halt with
    | breakpoint step =>
      obtain ⟨hhead, hpassed, hruns⟩ := hrest
      have hleft : left ≠ [] := by
        intro hnil
        simp [hnil] at hhead
      refine ⟨?_, ?_, ?_⟩
      . apply OnTrack.pause hagent hunended hlock
        . rw [← rest, hruns, hremaining]
        . rfl
        . intro _
          rw [hremaining]
          exact hleft
        . intro hstatus
          cases hstatus
      . calc
          _ = left.length + 1 := congrArg (·.length + 1) hremaining
          _ < session.patience :=
            lt_patience_of_left hwait hsplit hleft (fun h => hpassed (decide_eq_true h)) atEnd
      . intro error
        simp [Session.pause, moveTo]
    | failure error =>
      have hended := rest.symm.trans hrest.2
      refine ⟨OnTrack.fail hagent hunended.1 hlock hended _, patience_pos hwait, ?_⟩
      intro other
      rw [hended]
      simp [Session.fail, moveTo]
    | finished =>
      have hended := rest.symm.trans hrest.2
      dsimp only
      split
      -- the pause at the end is made once: a session that goes on from there has no step left
      . next hpause =>
        have hend : session.status ≠ .pausedAtEnd := by
          intro hstatus
          simp [hstatus] at hpause
        refine ⟨?_, one_lt_patience hwait hend atBreakpoint, by simp [Session.pause, moveTo]⟩
        apply OnTrack.pause hagent hunended hlock
        . rw [hremaining, hrest.1, hended]
          rfl
        . rfl
        . intro hstatus
          cases hstatus
        . intro _
          exact hremaining.trans hrest.1
      . refine ⟨OnTrack.complete hagent hunended.2 hlock hended _, patience_pos hwait, ?_⟩
        simp [Session.complete, moveTo]

theorem OnTrack.outcome {execution : Execution} (h : OnTrack engine agent c₁ c₂ s₀ session j)
    (hterminal : session.status.isTerminal)
    (hexecution : execution.IsRunFrom engine agent s₀)
    : (∃ made, j.calls = c₁ ++ made ∧ execution.state.journal.calls = c₂ ++ made) ∧
      match execution.result with
      | .ok value =>
        session.status = .completed ∧
        session.view.result
          =
        some (Masking.maskJson execution.state.bindings.secretValues value) ∧
        session.view.error = none ∧
        (engine.runSteps agent.steps {} s₀).1 = none
      | .error error =>
        session.status = .failed ∧
        session.view.result = none ∧
        session.view.error = some (execution.state.bindings.maskText error.message) ∧
        (engine.runSteps agent.steps {} s₀).1 = some error := by
  cases h with
  | waiting p s agent_eq status unended follows rest atBreakpoint atEnd =>
    exact absurd hterminal (SessionStatus.not_isTerminal_of_canProceed status)
  | completed p s agent_eq status ended alike result error =>
    have hends := hexecution.of_none ended
    rw [hends.calls, hends.result, hends.bindings, ended]
    refine ⟨alike.calls, status, ?_, error, rfl⟩
    unfold view
    dsimp only
    rw [result, ← alike.bindings]
    rfl
  | failed error p s agent_eq status ended alike result error_eq =>
    have hends := hexecution.of_error ended
    rw [hends.calls, hends.result, hends.bindings, ended]
    refine ⟨alike.calls, status, ?_, error_eq, rfl⟩
    unfold view
    dsimp only
    rw [result]
    rfl

def failure? (engine : Engine) (session : Session) (j : Journal) : Action → Option ExecutionError
  | .proceed =>
    match (session.proceed engine j).1 with
    | .error (.execution error) => some error
    | _ => none
  | _ => none

def newFailure (verdict : Option ExecutionError) (before after : Session)
    : Option ExecutionError :=
  if before.status ≠ .failed ∧ after.status = .failed then verdict else none

theorem OnTrack.act_proceed (even : Call.EquallyMany c₁ c₂)
    (h : OnTrack engine agent c₁ c₂ s₀ session j)
    : OnTrack engine agent c₁ c₂ s₀ (session.proceed engine j).2.1
        (session.proceed engine j).2.2 ∧
      (session.proceed engine j).2.1.patience ≤ session.patience - 1 ∧
      session.failure? engine j .proceed
        =
      newFailure (engine.runSteps agent.steps {} s₀).1 session (session.proceed engine j).2.1 := by
  by_cases hwait : session.status.canProceed
  . obtain ⟨htrack, hpatience, hreply⟩ := h.proceed even hwait
    refine ⟨htrack, by omega, ?_⟩
    have hstatus : session.status ≠ .failed := by
      intro hfailed
      rw [hfailed] at hwait
      cases hwait
    unfold failure? newFailure
    dsimp only
    split
    . next error herror =>
      obtain ⟨hafter, hverdict⟩ := (hreply error).mp herror
      rw [if_pos ⟨hstatus, hafter⟩, hverdict]
    . next hnone =>
      split
      . next hfailed =>
        cases hverdict : (engine.runSteps agent.steps {} s₀).1 with
        | none => rfl
        | some error => exact absurd ((hreply error).mpr ⟨hfailed.2, hverdict⟩) (hnone error)
      . rfl
  . have hrefused : session.proceed engine j
        = (.error (.invalidState "continue" session.status.name), session, j) := by
      unfold Session.proceed
      rw [if_neg hwait]
    have hpatience : session.patience = 0 := by
      unfold patience
      revert hwait
      cases session.status <;> simp [SessionStatus.canProceed]
    unfold failure? newFailure
    rw [hrefused]
    refine ⟨h, ?_, ?_⟩
    . dsimp only
      omega
    . dsimp only
      rw [if_neg]
      rintro ⟨hbefore, hafter⟩
      exact hbefore hafter

theorem OnTrack.act (even : Call.EquallyMany c₁ c₂)
    (h : OnTrack engine agent c₁ c₂ s₀ session j) (action : Action)
    (harmless : action.isHarmless)
    : OnTrack engine agent c₁ c₂ s₀ (session.act engine j action).1
        (session.act engine j action).2 ∧
      (session.act engine j action).1.patience
        ≤
      session.patience - (if action.isProceed then 1 else 0) ∧
      session.failure? engine j action
        =
      newFailure (engine.runSteps agent.steps {} s₀).1 session
        (session.act engine j action).1 := by
  have hunfailed (after : Session) (hafter : after.status = session.status)
      : newFailure (engine.runSteps agent.steps {} s₀).1 session after = none := by
    unfold newFailure
    rw [if_neg]
    rintro ⟨hbefore, hfailed⟩
    exact hbefore (hafter ▸ hfailed)
  cases action with
  | proceed => exact h.act_proceed even
  | setVariable name value => cases harmless
  | view => exact ⟨h, Nat.le_refl _, (hunfailed session rfl).symm⟩
  | trace => exact ⟨h, Nat.le_refl _, (hunfailed session rfl).symm⟩
  | clearBreakpoint step =>
    exact ⟨h.congr _ _ rfl, Nat.le_refl _, (hunfailed _ rfl).symm⟩
  | setBreakpoint step =>
    simp only [Session.act, setBreakpoint]
    split
    . exact ⟨h, Nat.le_refl _, (hunfailed session rfl).symm⟩
    . exact ⟨h.congr _ _ rfl, Nat.le_refl _, (hunfailed _ rfl).symm⟩

theorem act_failed (engine : Engine) {session : Session} (j : Journal) (action : Action)
    (h : session.status = .failed)
    : (session.act engine j action).1.status = .failed := by
  cases action with
  | setBreakpoint step =>
    simp only [act, setBreakpoint]
    split <;> exact h
  | clearBreakpoint step => exact h
  | proceed =>
    simp only [act, Session.proceed]
    rw [if_neg (by simp [h, SessionStatus.canProceed])]
    exact h
  | setVariable name value =>
    simp only [act, setVariable]
    rw [if_pos (by simp [h, SessionStatus.isTerminal])]
    exact h
  | view => exact h
  | trace => exact h

theorem newFailure_trans (verdict : Option ExecutionError) (first second third : Session)
    (h₁ : first.status = .failed → second.status = .failed)
    (h₂ : second.status = .failed → third.status = .failed)
    : (newFailure verdict first second).toList ++ (newFailure verdict second third).toList
        =
      (newFailure verdict first third).toList := by
  unfold newFailure
  by_cases hfirst : first.status = .failed <;> by_cases hsecond : second.status = .failed <;>
    by_cases hthird : third.status = .failed <;> simp_all

end Session

namespace Sessions

open Session

variable {agent : Agent} {c₁ c₂ : List Call} {s₀ : RunState}

theorem executionError?_perform_act {t : Sessions} {id : SessionId} {session : Session}
    (h : t.find? id = some session) (action : Action)
    : (t.perform (.act id action)).1.executionError?
        =
      { session with lastUsed := t.idleClock }.failure? t.engine t.journal action := by
  cases action with
  | proceed =>
    simp only [perform, act, proceed, use, h, failure?, Reply.executionError?]
    cases ({ session with lastUsed := t.idleClock }.proceed t.engine t.journal).1 with
    | ok _ => rfl
    | error error => cases error <;> rfl
  | view => simp [perform, act, view, use, h, failure?, Reply.executionError?]
  | trace => rfl
  | setBreakpoint step => rfl
  | clearBreakpoint step => rfl
  | setVariable name value => rfl

/-- A session stays on its track under any actions that are harmless. -/
theorem run_onTrack (even : Call.EquallyMany c₁ c₂) (id : SessionId)
    (actions : List Action) (harmless : ∀ action ∈ actions, action.isHarmless)
    (t : Sessions) (session : Session) (hfind : t.find? id = some session)
    (track : OnTrack t.engine agent c₁ c₂ s₀ session t.journal)
    : ∃ last,
        (t.run (actions.map (.act id))).2.find? id = some last ∧
        OnTrack t.engine agent c₁ c₂ s₀ last (t.run (actions.map (.act id))).2.journal ∧
        last.patience ≤ session.patience - actions.countP Action.isProceed ∧
        (t.run (actions.map (.act id))).1.filterMap Reply.executionError?
          =
        (newFailure (t.engine.runSteps agent.steps {} s₀).1 session last).toList ∧
        (session.status = .failed → last.status = .failed) := by
  induction actions generalizing t session with
  | nil =>
    refine ⟨session, hfind, track, Nat.le_refl _, ?_, fun h => h⟩
    simp [run, newFailure]
  | cons action rest ih =>
    have hused := track.congr session.breakpoints t.idleClock (k := t.journal) rfl
    obtain ⟨hact, hpatience, hfailure⟩ := hused.act even action (harmless action (by simp))
    have hnext : (t.perform (.act id action)).2.find? id = some
        ({ session with lastUsed := t.idleClock }.act t.engine t.journal action).1 := by
      rw [find?_perform_act, hfind]
      simp
    have htrack : OnTrack (t.perform (.act id action)).2.engine agent c₁ c₂ s₀
        ({ session with lastUsed := t.idleClock }.act t.engine t.journal action).1
        (t.perform (.act id action)).2.journal := by
      rw [perform_act_engine, perform_act_journal hfind]
      exact hact
    obtain ⟨last, hlast, hlasttrack, hlastpatience, hreplies, hfailed⟩ :=
      ih (fun action h => harmless action (by simp [h])) _ _ hnext htrack
    rw [perform_act_engine] at hlasttrack hreplies
    -- the error is told by one action only, since a failed session stays failed
    have hstays : session.status = .failed →
        ({ session with lastUsed := t.idleClock }.act t.engine t.journal action).1.status
          = .failed :=
      fun h => act_failed t.engine t.journal action h
    refine ⟨last, hlast, hlasttrack, ?_, ?_, fun h => hfailed (hstays h)⟩
    . have hcount : (action :: rest).countP Action.isProceed
          = rest.countP Action.isProceed + (if action.isProceed then 1 else 0) :=
        List.countP_cons ..
      have hsame : { session with lastUsed := t.idleClock }.patience = session.patience := rfl
      omega
    . have hreply : (t.perform (.act id action)).1.executionError?
          = newFailure (t.engine.runSteps agent.steps {} s₀).1 session
            ({ session with lastUsed := t.idleClock }.act t.engine t.journal action).1 :=
        (executionError?_perform_act hfind action).trans hfailure
      rw [← newFailure_trans _ session _ last hstays hfailed, ← hreplies, ← hreply]
      rw [List.map_cons, run_cons, List.filterMap_cons]
      cases (t.perform (.act id action)).1.executionError? <;> rfl

theorem breakpoints_keep_outcome_in_order {t t' : Sessions} {agent : Agent} {input : Json}
    {id : SessionId} (fresh : t.Fresh) (started : t.startAgent agent input = (.ok id, t'))
    {j : Journal} (even : Call.EquallyMany t.journal.calls j.calls)
    (inOrder : j.order = t.journal.order) (actions : List Action)
    (harmless : ∀ action ∈ actions, action.isHarmless)
    : let execution := t.engine.execute agent input j
      let (replies, after) := t'.run (actions.map (.act id))
      ∃ view,
        (after.view id).1 = .ok view ∧
        (agent.steps.length + 2 ≤ actions.countP Action.isProceed → view.status.isTerminal) ∧
        (view.status.isTerminal →
          (∃ made,
            after.journal.calls = t.journal.calls ++ made ∧
            execution.state.journal.calls = j.calls ++ made) ∧
          match execution.result with
          | .ok value =>
            view.status = .completed ∧
            view.result = some (Masking.maskJson execution.state.bindings.secretValues value) ∧
            view.error = none ∧
            replies.filterMap Reply.executionError? = []
          | .error error =>
            view.status = .failed ∧
            view.result = none ∧
            view.error = some (execution.state.bindings.maskText error.message) ∧
            replies.filterMap Reply.executionError? = [error]) := by
  dsimp only
  obtain ⟨_, bindings, time, hseed, hfind, hcalls, hengine, _⟩ := startAgent_ok fresh started
  obtain ⟨s₀, hs₀, hs₀calls, _, hexecute⟩ := Engine.execute_of_seed hseed j
  rw [inOrder] at hs₀
  have htrack : OnTrack t'.engine agent t.journal.calls j.calls s₀ (t.opened agent bindings time)
      t'.journal := by
    refine .waiting {} s₀ rfl rfl ⟨rfl, rfl⟩ ⟨⟨hs₀.symm, ?_, trivial⟩, rfl⟩ rfl ?_ ?_
    . exact ⟨[], by simp [runState, hcalls], by simp [hs₀calls]⟩
    . intro hstatus
      cases hstatus
    . intro hstatus
      cases hstatus
  obtain ⟨last, hlast, hlasttrack, hpatience, hreplies, _⟩ :=
    run_onTrack even id actions harmless t' _ hfind htrack
  generalize t'.run (actions.map (.act id)) = ran at hlast hlasttrack hreplies
  obtain ⟨replies, after⟩ := ran
  dsimp only at hlast hlasttrack hreplies ⊢
  rw [hengine] at hlasttrack hreplies
  refine ⟨{ last with lastUsed := after.idleClock }.view, ?_, ?_, ?_⟩
  . simp [view, use, hlast]
  . intro henough
    apply hlasttrack.isTerminal_of_patience
    have hfirst : (t.opened agent bindings time).patience = agent.steps.length + 2 := rfl
    omega
  . intro hterminal
    obtain ⟨hmade, houtcome⟩ :=
      (hlasttrack.congr last.breakpoints after.idleClock rfl).outcome hterminal hexecute
    refine ⟨hmade, ?_⟩
    rw [hreplies]
    split at houtcome
    . next hresult =>
      obtain ⟨hstatus, hview, herror, hverdict⟩ := houtcome
      refine ⟨hstatus, hview, herror, ?_⟩
      simp [newFailure, hverdict]
    . next error hresult =>
      obtain ⟨hstatus, hview, herror, hverdict⟩ := houtcome
      refine ⟨hstatus, hview, herror, ?_⟩
      have hfailed : last.status = .failed := hstatus
      simp [newFailure, hverdict, hfailed, opened]

/--
Under any breakpoints, a session that is let go on often enough comes to the same end as an execution
of its agent, by the same calls. Both fail with the same error, the view of the session with all
secrets hidden in it. If secrets overlap, each shows as much of them as its own order leaves.
-/
theorem breakpoints_keep_outcome {t t' : Sessions} {agent : Agent} {input : Json}
    {id : SessionId} (fresh : t.Fresh) (started : t.startAgent agent input = (.ok id, t'))
    {j : Journal} (even : Call.EquallyMany t.journal.calls j.calls) (actions : List Action)
    (harmless : ∀ action ∈ actions, action.isHarmless)
    : let execution := t.engine.execute agent input j
      let bindings := execution.state.bindings.inOrder t.journal.order
      let (replies, after) := t'.run (actions.map (.act id))
      ∃ view,
        (after.view id).1 = .ok view ∧
        (agent.steps.length + 2 ≤ actions.countP Action.isProceed → view.status.isTerminal) ∧
        (view.status.isTerminal →
          (∃ made,
            after.journal.calls = t.journal.calls ++ made ∧
            execution.state.journal.calls = j.calls ++ made) ∧
          match execution.result with
          | .ok value =>
            view.status = .completed ∧
            view.result = some (Masking.maskJson bindings.secretValues value) ∧
            view.error = none ∧
            replies.filterMap Reply.executionError? = []
          | .error error =>
            view.status = .failed ∧
            view.result = none ∧
            ∃ told,
              replies.filterMap Reply.executionError? = [told] ∧
              view.error = some (bindings.maskText told.message) ∧
              told.SameUnmasked bindings.secretValues execution.state.bindings.secretValues error ∧
              (t.journal.order = j.order
                  ∨ Masking.OrderFree execution.state.bindings.secretValues →
                told = error)) := by
  obtain ⟨_, bindings, _, hseed, _⟩ := startAgent_ok fresh started
  let j' : Journal := { j with orders := t.journal.orders }
  obtain ⟨view, hview, henough, hended⟩ :=
    breakpoints_keep_outcome_in_order fresh started (j := j') even rfl actions harmless
  refine ⟨view, hview, henough, ?_⟩
  intro hterminal
  obtain ⟨⟨made, hmade, hmade'⟩, houtcome⟩ := hended hterminal
  -- the execution that the session was compared with becomes the one in the other order
  obtain ⟨hresult, hstate⟩ := Engine.execute_alike hseed j' j fun _ => rfl
  obtain ⟨b, _, hb', hb⟩ := hstate.bindings
  have hbindings : (t.engine.execute agent input j').state.bindings
      = (t.engine.execute agent input j).state.bindings.inOrder t.journal.order := by
    rw [hb', hb]
    rfl
  rw [hbindings] at hresult houtcome
  obtain ⟨others, hothers', hothers⟩ := hstate.calls
  refine ⟨⟨made, hmade, ?_⟩, ?_⟩
  . rw [hothers', List.append_cancel_left_eq] at hmade'
    rw [hothers, hmade']
  . generalize (t.engine.execute agent input j').result = result' at hresult houtcome
    generalize (t.engine.execute agent input j).result = result at hresult
    cases hresult with
    | ok value => exact houtcome
    | @error told error hsame =>
      obtain ⟨hstatus, hnone, herror, hreplies⟩ := houtcome
      refine ⟨hstatus, hnone, told, hreplies, herror, hsame, ?_⟩
      intro hfree
      refine hsame.eq_of_perm (Bindings.inOrder_secretValues_perm _ _) (hfree.imp_left ?_)
      intro horder
      rw [hb, horder]
      rfl

def counting : Sessions where
  engine :=
    { registry := Registry.register {} "tool" none fun earlier _ => { result := .ok (.int earlier) }
      secrets := fun _ => none }

def twoCalls : Agent where
  id := "two-calls"
  version := "1.0"
  steps := [{ id := "first", kind := "tool" }, { id := "second", kind := "tool", save := some "n" }]

theorem breakpoints_keep_outcome_of_twoCalls
    : let actions : List Action :=
        [.setBreakpoint "second", .proceed, .view, .setBreakpoint endBreakpoint, .proceed, .trace,
          .clearBreakpoint "second", .proceed, .proceed]
      (counting.startAgent twoCalls .null).1 = .ok ⟨0⟩ ∧
      ∃ view,
        (((counting.startAgent twoCalls .null).2.run (actions.map (.act ⟨0⟩))).2.view ⟨0⟩).1
          = .ok view ∧
        view.status.isTerminal := by
  have fresh : counting.Fresh := fresh_of_live_nil rfl
  have started : counting.startAgent twoCalls .null
      = (.ok ⟨0⟩, (counting.startAgent twoCalls .null).2) := rfl
  obtain ⟨view, hview, henough, _⟩ := breakpoints_keep_outcome fresh started (j := {})
    (fun _ => rfl)
    [.setBreakpoint "second", .proceed, .view, .setBreakpoint endBreakpoint, .proceed, .trace,
      .clearBreakpoint "second", .proceed, .proceed] (by decide)
  exact ⟨rfl, view, hview, henough (by decide)⟩

def failing (words : String) (secrets : List (String × String)) : Sessions where
  engine :=
    { registry := Registry.register {} "tool" none fun _ _ => { result := .error (.root words) }
      secrets := .fixed secrets }

def confidant (secrets : List String) (step : String) : Agent where
  id := "confidant"
  version := "1.0"
  secrets := secrets.map fun name => { name, source := "env:" ++ name }
  steps := [{ id := step, kind := "tool" }]

/--
The view of a session hides a secret in the name of the step, which an execution leaves in its error.
If secrets overlap, even the error that the session fails with can be another one, since the table of
the execution may go through them the other way round.
-/
theorem error_differs_in_view_and_in_order
    : (let t := failing "down" [("TOKEN", "call-home")]
      let agent := confidant ["TOKEN"] "call-home"
      let (replies, after) := (t.startAgent agent .null).2.run [.act ⟨0⟩ .proceed]
      ∃ error view,
        (t.startAgent agent .null).1 = .ok ⟨0⟩ ∧
        (t.engine.execute agent .null {}).result = .error error ∧
        replies.filterMap Reply.executionError? = [error] ∧
        (after.view ⟨0⟩).1 = .ok view ∧
        view.status = .failed ∧
        view.error = some "step '[REDACTED]' failed after 1 attempt(s): down" ∧
        view.error ≠ some error.message) ∧
      let t := failing "key abcdefgh" [("A", "abcd"), ("B", "abcdefgh")]
      let agent := confidant ["A", "B"] "call"
      let backwards : Journal := { orders := fun _ => ⟨List.reverse, List.reverse_perm⟩ }
      let (replies, _) := (t.startAgent agent .null).2.run [.act ⟨0⟩ .proceed]
      (t.startAgent agent .null).1 = .ok ⟨0⟩ ∧
      replies.filterMap Reply.executionError? = [.stepFailed "call" 1 "key [REDACTED]efgh"] ∧
      (t.engine.execute agent .null backwards).result
        = .error (.stepFailed "call" 1 "key [REDACTED]") := by
  constructor
  . refine ⟨.stepFailed "call-home" 1 "down", _, rfl, rfl, ?_, rfl, rfl, ?_, ?_⟩
    . decide +kernel
    . decide +kernel
    . decide +kernel
  . refine ⟨rfl, ?_, rfl⟩
    decide +kernel

end Sessions

end Runbook
