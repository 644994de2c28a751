import Runbook.Session.Table

/-!
This module contains the operations on the table of debug sessions as data, so that sequences of
them can be spoken about, and what an operation on one session does to the table.
-/

namespace Runbook

namespace Session

/-- What can be asked of a session while it is in the table. -/
inductive Action where
  | setBreakpoint (step : String)
  | clearBreakpoint (step : String)
  | proceed
  | setVariable (name : String) (value : Json)
  | view
  | trace

def Action.isProceed : Action → Bool
  | proceed => true
  | _ => false

/-- What an action makes of a session. -/
def act (engine : Engine) (session : Session) (j : Journal) : Action → Session × Journal
  | .setBreakpoint step => (session.setBreakpoint step j).2
  | .clearBreakpoint step => ((session.clearBreakpoint step).2, j)
  | .proceed => (session.proceed engine j).2
  | .setVariable name value => (session.setVariable name value j).2
  | .view => (session, j)
  | .trace => (session, j)

end Session

namespace Sessions

inductive Operation where
  | start (source : String) (input : Json)
  | act (id : SessionId) (action : Session.Action)
  | stop (id : SessionId)

inductive Reply where
  | started (reply : Except SessionError SessionId)
  | done (reply : Except SessionError Unit)
  | cleared (reply : Except SessionError Bool)
  | shown (reply : Except SessionError SessionView)
  | traced (reply : Except SessionError Trace)

/-- The error that a step of an agent ended a session with. -/
def Reply.executionError? : Reply → Option ExecutionError
  | shown (.error (.execution error)) => some error
  | _ => none

def act (t : Sessions) (id : SessionId) : Session.Action → Reply × Sessions
  | .setBreakpoint step =>
    let (reply, t) := t.setBreakpoint id step
    (.done reply, t)
  | .clearBreakpoint step =>
    let (reply, t) := t.clearBreakpoint id step
    (.cleared reply, t)
  | .proceed =>
    let (reply, t) := t.proceed id
    (.shown reply, t)
  | .setVariable name value =>
    let (reply, t) := t.setVariable id name value
    (.done reply, t)
  | .view =>
    let (reply, t) := t.view id
    (.shown reply, t)
  | .trace =>
    let (reply, t) := t.trace id
    (.traced reply, t)

def perform (t : Sessions) : Operation → Reply × Sessions
  | .start source input =>
    let (reply, t) := t.start source input
    (.started reply, t)
  | .act id action => t.act id action
  | .stop id =>
    let (reply, t) := t.stop id
    (.shown reply, t)

/-- Performs operations one after another. -/
def run (t : Sessions) : List Operation → List Reply × Sessions
  | [] => ([], t)
  | op :: ops =>
    let (reply, t) := t.perform op
    let (replies, t) := run t ops
    (reply :: replies, t)

theorem run_cons (t : Sessions) (op : Operation) (ops : List Operation)
    : t.run (op :: ops)
        =
      ((t.perform op).1 :: ((t.perform op).2.run ops).1, ((t.perform op).2.run ops).2) := rfl

/-- No session has an id that is still to be given out. -/
def Fresh (t : Sessions) : Prop :=
  ∀ session ∈ t.live, session.id.number < t.started

end Sessions

namespace Session

theorem runSteps_frame (engine : Engine) (paused : Bool) (steps : List Agent.Step)
    (session : Session) (j : Journal)
    : ∃ bindings trace lastSaved cursor,
        (runSteps engine paused steps session j).2.1
          =
        { session with bindings, trace, lastSaved, cursor } := by
  induction steps generalizing paused session j with
  | nil => exact ⟨_, _, _, _, rfl⟩
  | cons step rest ih =>
    unfold runSteps
    split
    . exact ⟨_, _, _, _, rfl⟩
    . split
      . next outcome s _ =>
        obtain ⟨bindings, trace, lastSaved, cursor, h⟩ :=
          ih false ((session.adopt s).pass step outcome) s.journal
        rw [h]
        exact ⟨bindings, trace, lastSaved, cursor, rfl⟩
      . exact ⟨_, _, _, _, rfl⟩

theorem begin_frame (session : Session) (j : Journal)
    : ∃ trace, (session.begin j).1 = { session with trace, status := .running } := by
  unfold begin
  dsimp only
  split <;> exact ⟨_, rfl⟩

theorem runSteps_begin_frame (engine : Engine) (paused : Bool) (session : Session) (j : Journal)
    : ∃ bindings trace lastSaved cursor,
        (runSteps engine paused session.remaining (session.begin j).1 (session.begin j).2).2.1
          =
        { session with bindings, trace, lastSaved, cursor, status := .running } := by
  obtain ⟨bindings, trace, lastSaved, cursor, hrun⟩ := runSteps_frame engine paused
    session.remaining (session.begin j).1 (session.begin j).2
  obtain ⟨_, hbegin⟩ := session.begin_frame j
  refine ⟨bindings, trace, lastSaved, cursor, ?_⟩
  rw [hrun, hbegin]

def conclude (engine : Engine) (atEnd : Bool) (start : Nat)
    : Halt × Session × Journal → Except SessionError Unit × Session × Journal
  | (.breakpoint step, session, j) => (.ok (), session.pause (some step) .pausedAtBreakpoint j)
  | (.failure error, session, j) => (.error (.execution error), session.fail start error j)
  | (.finished, session, j) =>
    if !atEnd && session.breakpoints.contains endBreakpoint then
      (.ok (), session.pause none .pausedAtEnd j)
    else
      (.ok (), session.complete engine start j)

theorem proceed_eq_conclude (engine : Engine) (session : Session) (j : Journal)
    (h : session.status.canProceed)
    : session.proceed engine j
        =
      conclude engine (session.status = .pausedAtEnd) j.clock
        (runSteps engine (session.status = .pausedAtBreakpoint) session.remaining
          (session.begin j).1 (session.begin j).2) := by
  have hremaining : (session.begin j).1.remaining = session.remaining := by
    obtain ⟨trace, hbegin⟩ := session.begin_frame j
    rw [hbegin]
    rfl
  unfold proceed
  rw [if_pos h]
  dsimp only
  rw [hremaining]
  split
  . next hrun =>
    rw [hrun]
    rfl
  . next hrun =>
    rw [hrun]
    rfl
  . next hrun =>
    rw [hrun]
    unfold conclude
    simp

theorem conclude_id (engine : Engine) (atEnd : Bool) (start : Nat)
    (run : Halt × Session × Journal)
    : (conclude engine atEnd start run).2.1.id = run.2.1.id := by
  obtain ⟨halt, session, j⟩ := run
  cases halt with
  | breakpoint step => rfl
  | failure error => rfl
  | finished =>
    unfold conclude
    dsimp only
    split <;> rfl

theorem proceed_id (engine : Engine) (session : Session) (j : Journal)
    : (session.proceed engine j).2.1.id = session.id := by
  by_cases h : session.status.canProceed
  . rw [proceed_eq_conclude engine session j h]
    rw [conclude_id]
    obtain ⟨_, _, _, _, hrun⟩ :=
      runSteps_begin_frame engine (session.status = .pausedAtBreakpoint) session j
    rw [hrun]
  . unfold proceed
    rw [if_neg h]

theorem act_id (engine : Engine) (session : Session) (j : Journal) (action : Action)
    : (session.act engine j action).1.id = session.id := by
  cases action with
  | setBreakpoint step =>
    simp only [act, setBreakpoint]
    split <;> rfl
  | clearBreakpoint step => rfl
  | proceed => exact proceed_id engine session j
  | setVariable name value =>
    simp only [act, setVariable]
    split <;> rfl
  | view => rfl
  | trace => rfl

end Session

namespace Sessions

theorem find?_replace (t : Sessions) (session : Session) (id : SessionId)
    : (t.replace session).find? id
        =
      if session.id = id then (t.find? id).map fun _ => session else t.find? id := by
  unfold find? replace
  dsimp only
  induction t.live with
  | nil => simp
  | cons first rest ih =>
    rw [List.map_cons, List.find?_cons, List.find?_cons, ih]
    by_cases hfirst : first.id = session.id
    . by_cases hid : session.id = id <;> simp [hfirst, hid]
    . by_cases hid : session.id = id
      . have hne : first.id ≠ id := by
          rw [← hid]
          exact hfirst
        simp [hid, hne]
      . simp [hfirst, hid]

theorem perform_act (t : Sessions) (id : SessionId) (action : Session.Action)
    : (t.perform (.act id action)).2
        =
      match t.find? id with
      | none => t
      | some session =>
        let acted := { session with lastUsed := t.idleClock }.act t.engine t.journal action
        { t with journal := acted.2 }.replace acted.1 := by
  cases action <;> simp only [perform, act, setBreakpoint, clearBreakpoint, proceed, setVariable,
    view, trace, use] <;> split <;> simp_all [Session.act]

theorem id_of_find? {t : Sessions} {id : SessionId} {session : Session}
    (h : t.find? id = some session)
    : session.id = id := by
  have := List.find?_some h
  simpa using this

theorem find?_perform_act (t : Sessions) (id other : SessionId) (action : Session.Action)
    : (t.perform (.act id action)).2.find? other
        =
      if id = other then
        (t.find? id).map fun session =>
          ({ session with lastUsed := t.idleClock }.act t.engine t.journal action).1
      else
        t.find? other := by
  rw [perform_act]
  split
  . next h =>
    split
    . next hid =>
      rw [← hid, h]
      rfl
    . rfl
  . next session h =>
    dsimp only
    rw [find?_replace]
    have hid : ({ session with lastUsed := t.idleClock }.act t.engine t.journal action).1.id = id := by
      rw [Session.act_id]
      exact (id_of_find? h : session.id = id)
    rw [hid]
    split
    . next hother =>
      rw [← hother]
      unfold find? at h ⊢
      simp [h]
    . rfl

theorem perform_act_journal {t : Sessions} {id : SessionId} {session : Session}
    (h : t.find? id = some session) (action : Session.Action)
    : (t.perform (.act id action)).2.journal
        =
      ({ session with lastUsed := t.idleClock }.act t.engine t.journal action).2 := by
  rw [perform_act, h]
  rfl

@[simp]
theorem perform_act_engine (t : Sessions) (id : SessionId) (action : Session.Action)
    : (t.perform (.act id action)).2.engine = t.engine := by
  rw [perform_act]
  split <;> rfl

def opened (t : Sessions) (agent : Agent) (bindings : Bindings) (time : Moment) : Session where
  id := ⟨t.started⟩
  agent
  bindings := bindings.inOrder t.journal.order
  trace := (Trace.new t.engine.settings.traceCapacity).push ⟨.started agent.id agent.version, time⟩
  lastUsed := t.idleClock

theorem startAgent_of_seed {t : Sessions} {agent : Agent} {input : Json} {bindings : Bindings}
    (fresh : t.Fresh) (h : (t.engine.seed agent input).1 = .ok bindings)
    : ∃ time t',
        t.startAgent agent input = (.ok ⟨t.started⟩, t') ∧
        t'.find? ⟨t.started⟩ = some (t.opened agent bindings time) ∧
        t'.journal.calls = t.journal.calls ∧
        t'.engine = t.engine ∧
        t'.started = t.started + 1 := by
  have hnone : t.live.find? (fun session => session.id = ⟨t.started⟩) = none := by
    rw [List.find?_eq_none]
    intro session hmem hid
    have := fresh session hmem
    simp only [decide_eq_true_eq] at hid
    rw [hid] at this
    simp at this
  unfold startAgent
  dsimp only
  rw [h]
  let journal := t.journal.pastOrder.writeAll (t.engine.seed agent input).2
  refine ⟨journal.now, _, rfl, ?_, rfl, rfl, rfl⟩
  simp [find?, write, hnone, opened, journal]

theorem startAgent_ok {t t' : Sessions} {agent : Agent} {input : Json} {id : SessionId}
    (fresh : t.Fresh) (h : t.startAgent agent input = (.ok id, t'))
    : id = ⟨t.started⟩ ∧
      ∃ bindings time,
        (t.engine.seed agent input).1 = .ok bindings ∧
        t'.find? id = some (t.opened agent bindings time) ∧
        t'.journal.calls = t.journal.calls ∧
        t'.engine = t.engine ∧
        t'.started = t.started + 1 := by
  cases hseed : (t.engine.seed agent input).1 with
  | error error =>
    unfold startAgent at h
    dsimp only at h
    rw [hseed] at h
    simp at h
  | ok bindings =>
    obtain ⟨time, t'', hstart, hopened⟩ := startAgent_of_seed fresh hseed
    rw [hstart] at h
    simp only [Prod.mk.injEq, Except.ok.injEq] at h
    obtain ⟨rfl, rfl⟩ := h
    exact ⟨rfl, bindings, time, rfl, hopened⟩

theorem find?_perform_start (t : Sessions) (source : String) (input : Json) {id : SessionId}
    (h : id.number < t.started)
    : (t.perform (.start source input)).2.find? id = t.find? id ∧
      t.started ≤ (t.perform (.start source input)).2.started := by
  unfold perform start
  dsimp only
  split
  . exact ⟨rfl, Nat.le_refl _⟩
  . unfold startAgent
    dsimp only
    split
    . exact ⟨rfl, Nat.le_refl _⟩
    . constructor
      . have hne : (⟨t.started⟩ : SessionId) ≠ id := by
          intro hid
          rw [← hid] at h
          exact Nat.lt_irrefl _ h
        simp [find?, write, List.find?_append, hne]
      . exact Nat.le_succ _

theorem find?_perform_stop (t : Sessions) {id other : SessionId} (h : id ≠ other)
    : (t.perform (.stop id)).2.find? other = t.find? other ∧
      (t.perform (.stop id)).2.started = t.started := by
  unfold perform stop
  dsimp only
  split
  . exact ⟨rfl, rfl⟩
  . refine ⟨?_, rfl⟩
    unfold find? erase
    dsimp only
    rw [List.find?_filter]
    congr
    funext session
    by_cases hid : session.id = other
    . simp [hid, h.symm]
    . simp [hid]

theorem perform_act_started (t : Sessions) (id : SessionId) (action : Session.Action)
    : (t.perform (.act id action)).2.started = t.started := by
  rw [perform_act]
  split <;> rfl

theorem fresh_of_live_nil {t : Sessions} (h : t.live = []) : t.Fresh := by
  intro session hmem
  rw [h] at hmem
  cases hmem

theorem Fresh.replace {t : Sessions} (fresh : t.Fresh) (session : Session)
    : (t.replace session).Fresh := by
  intro kept hmem
  obtain ⟨old, hold, rfl⟩ := List.mem_map.mp hmem
  have hold := fresh old hold
  split
  . next h => rwa [← h]
  . exact hold

theorem Fresh.start {t : Sessions} (fresh : t.Fresh) (source : String) (input : Json)
    : (t.start source input).2.Fresh := by
  unfold Sessions.start
  dsimp only
  split
  . exact fresh
  . unfold startAgent
    dsimp only
    split
    . exact fresh
    . intro session hmem
      obtain hold | hnew := List.mem_append.mp hmem
      . exact Nat.lt_succ_of_lt (fresh session hold)
      . rw [List.mem_singleton] at hnew
        rw [hnew]
        exact Nat.lt_succ_self t.started

theorem Fresh.stop {t : Sessions} (fresh : t.Fresh) (id : SessionId) : (t.stop id).2.Fresh := by
  unfold Sessions.stop
  split
  . exact fresh
  . intro session hmem
    exact fresh session (List.mem_filter.mp hmem).1

theorem Fresh.perform {t : Sessions} (fresh : t.Fresh) (op : Operation)
    : (t.perform op).2.Fresh := by
  cases op with
  | start source input => exact fresh.start source input
  | stop id => exact fresh.stop id
  | act id action =>
    rw [perform_act]
    cases hfind : t.find? id with
    | none => exact fresh
    | some session => exact Fresh.replace fresh _

theorem Fresh.run {t : Sessions} (fresh : t.Fresh) (ops : List Operation)
    : (t.run ops).2.Fresh := by
  induction ops generalizing t with
  | nil => exact fresh
  | cons op rest ih =>
    rw [run_cons]
    exact ih (fresh.perform op)

/-- What the actions on a session keep holds whenever it is looked at, unless it is stopped. -/
theorem find?_run {Inv : Session → Prop} {id : SessionId} {ops : List Operation}
    (hused : ∀ session lastUsed, Inv session → Inv { session with lastUsed })
    (hact : ∀ action, .act id action ∈ ops → ∀ engine session j, Inv session →
      Inv (session.act engine j action).1)
    (unstopped : .stop id ∉ ops) {t : Sessions} {session : Session} (hid : id.number < t.started)
    (hfind : t.find? id = some session) (hinv : Inv session)
    : ∃ last, (t.run ops).2.find? id = some last ∧ Inv last := by
  -- the session stays where it is found, and its id below those that are still given out
  induction ops generalizing t session with
  | nil => exact ⟨session, hfind, hinv⟩
  | cons op rest ih =>
    have hstep : ∃ next,
        (t.perform op).2.find? id = some next ∧ Inv next ∧ t.started ≤ (t.perform op).2.started := by
      cases op with
      | start source input =>
        obtain ⟨hsame, hstarted⟩ := find?_perform_start t source input hid
        exact ⟨session, hsame.trans hfind, hinv, hstarted⟩
      | stop other =>
        have hother : other ≠ id := by
          rintro rfl
          simp at unstopped
        obtain ⟨hsame, hstarted⟩ := find?_perform_stop t hother
        exact ⟨session, hsame.trans hfind, hinv, Nat.le_of_eq hstarted.symm⟩
      | act other action =>
        have hstarted := perform_act_started t other action
        by_cases hother : other = id
        . subst hother
          refine ⟨({ session with lastUsed := t.idleClock }.act t.engine t.journal action).1, ?_, ?_,
            Nat.le_of_eq hstarted.symm⟩
          . rw [find?_perform_act, if_pos rfl, hfind]
            rfl
          . apply hact action (by simp)
            exact hused session t.idleClock hinv
        . refine ⟨session, ?_, hinv, Nat.le_of_eq hstarted.symm⟩
          rw [find?_perform_act, if_neg hother]
          exact hfind
    obtain ⟨next, hnext, hnextinv, hstarted⟩ := hstep
    rw [run_cons]
    apply ih
    . intro action hmem
      exact hact action (List.mem_cons_of_mem op hmem)
    . intro hmem
      exact unstopped (List.mem_cons_of_mem op hmem)
    . exact Nat.lt_of_lt_of_le hid hstarted
    . exact hnext
    . exact hnextinv

end Sessions

end Runbook
