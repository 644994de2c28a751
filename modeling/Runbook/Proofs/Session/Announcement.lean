import Runbook.Proofs.Session.Lifecycle

/-!
This module contains the reason why no step with a breakpoint is run by surprise: it is run first,
by a session that waited at it, and an earlier reply has told so. The same is true of the outputs
and the breakpoint at the end.
-/

namespace Runbook

namespace Session

/-- A session that is let go on becomes `next` by running the steps `ran`, and no others. -/
structure Runs (engine : Engine) (session : Session) (j : Journal) (ran : List Agent.Step)
    (next : Session) (k : Journal) : Prop where
  steps : ran <+: session.remaining
  cursor :
    next.cursor = session.cursor + ran.length ∨
      next.status = .failed ∧ next.cursor + 1 = session.cursor + ran.length
  bindings : next.bindings = (engine.advanceAll [session.field] ran (session.begun j)).bindings
  calls : k.calls = (engine.advanceAll [session.field] ran (session.begun j)).journal.calls
  dispatches : Journal.Adds (fun call => ∃ step ∈ ran, call.IsFor step) j k

variable {engine : Engine} {session : Session} {j : Journal}

theorem begun_used (session : Session) (lastUsed : Nat) (j : Journal)
    : begun { session with lastUsed } j = session.begun j := by
  unfold begun begin
  dsimp only
  split <;> rfl

theorem stepsRun_used (engine : Engine) (session : Session) (lastUsed : Nat) (j : Journal)
    : stepsRun engine { session with lastUsed } j = session.stepsRun engine j := by
  unfold stepsRun
  rw [begun_used]
  rfl

theorem Runs.of_used {ran : List Agent.Step} {next : Session} {k : Journal} {lastUsed : Nat}
    (h : Runs engine { session with lastUsed } j ran next k)
    : session.Runs engine j ran next k := by
  obtain ⟨steps, cursor, bindings, calls, dispatches⟩ := h
  rw [begun_used] at bindings calls
  exact ⟨steps, cursor, bindings, calls, dispatches⟩

theorem Reached.runs {halt : Halt} {ran next : Session} {k l : Journal}
    (h : session.Reached engine j halt ran k)
    (hnext : next.cursor = ran.cursor ∧ next.bindings = ran.bindings) (hcalls : l.calls = k.calls)
    (hfailed : ∀ error, halt = .failure error → next.status = .failed)
    : session.Runs engine j (session.stepsRun engine j) next l := by
  obtain ⟨left, hsplit, hstate, hstop⟩ := h.reaches
  obtain ⟨hfield, _, hcursor⟩ := session.begin_kept j
  rw [hfield] at hstate
  rw [hcursor] at hstop
  have hmade : l.calls
      = (engine.advanceAll [session.field] (session.stepsRun engine j) (session.begun j)).journal.calls
      := hcalls.trans (congrArg (·.journal.calls) hstate)
  constructor
  . rw [hsplit]
    exact List.prefix_append ..
  . rw [hnext.1]
    cases halt with
    | breakpoint step => exact .inl hstop.1
    | failure error => exact .inr ⟨hfailed error rfl, hstop.2⟩
    | finished => exact .inl hstop.1
  . rw [hnext.2]
    exact congrArg RunState.bindings hstate
  . exact hmade
  . have hbegun : Journal.Adds (fun call => ∃ step ∈ session.stepsRun engine j, call.IsFor step) j
        (session.begun j).journal := .of_eq rfl
    apply hbegun.trans
    apply (Engine.advanceAll_adds (session.stepsRun engine j) (session.begun j)).trans
    exact .of_eq hmade

theorem proceed_runs (engine : Engine) (session : Session) (j : Journal)
    : session.Runs engine j (session.stepsRun engine j) (session.proceed engine j).2.1
        (session.proceed engine j).2.2 := by
  have hproceeds := session.proceeds engine j
  generalize session.proceed engine j = answer at hproceeds
  cases hproceeds with
  | refused hrefused =>
    unfold stepsRun
    rw [if_neg (by simpa using hrefused)]
    refine ⟨List.nil_prefix, .inl rfl, ?_, rfl, .of_eq rfl⟩
    obtain ⟨_, hframe⟩ := session.begin_frame j
    unfold begun
    rw [hframe]
    rfl
  | pausedAtStep step ran k reached => exact reached.runs ⟨rfl, rfl⟩ rfl nofun
  | failed error ran k reached => exact reached.runs ⟨rfl, rfl⟩ rfl fun _ _ => rfl
  | pausedAtEnd ran k reached _ => exact reached.runs ⟨rfl, rfl⟩ rfl nofun
  | completed ran k reached _ => exact reached.runs ⟨rfl, rfl⟩ rfl nofun

theorem waits_of_stepsRun {i : Nat} {step : Agent.Step}
    (h : (session.stepsRun engine j)[i]? = some step) (hbreak : step.id ∈ session.breakpoints)
    : i = 0 ∧ session.status = .pausedAtBreakpoint ∧
      session.agent.steps[session.cursor]? = some step := by
  unfold stepsRun at h
  split at h
  . obtain ⟨hfirst, hpaused, hhead⟩ := Engine.eq_zero_of_stepsReached h hbreak
    refine ⟨hfirst, of_decide_eq_true hpaused, ?_⟩
    rw [remaining, List.head?_drop] at hhead
    exact hhead
  . simp at h

theorem Reached.result {halt : Halt} {ran : Session} {k : Journal}
    (h : session.Reached engine j halt ran k)
    : ran.result = session.result := by
  obtain ⟨_, _, _, _, hframe⟩ := h.frame
  rw [hframe]

theorem waits_of_result (h : (session.proceed engine j).2.1.result ≠ session.result)
    (hbreak : endBreakpoint ∈ session.breakpoints)
    : session.status = .pausedAtEnd := by
  have hproceeds := session.proceeds engine j
  generalize session.proceed engine j = answer at hproceeds h
  cases hproceeds with
  | refused _ => exact absurd rfl h
  | pausedAtStep step ran k reached => exact absurd reached.result h
  | failed error ran k reached => exact absurd reached.result h
  | pausedAtEnd ran k reached _ => exact absurd reached.result h
  | completed ran k reached hend => exact hend hbreak

def IsPaused (session : Session) : Prop :=
  session.status = .pausedAtBreakpoint ∨ session.status = .pausedAtEnd

theorem proceed_isPaused (h : (session.proceed engine j).2.1.IsPaused)
    : (session.proceed engine j).1 = .ok () ∨ (session.proceed engine j).2.1 = session := by
  have hproceeds := session.proceeds engine j
  generalize session.proceed engine j = answer at hproceeds h
  cases hproceeds with
  | refused _ => exact .inr rfl
  | pausedAtStep step ran k _ => exact .inl rfl
  | failed error ran k _ => simp [fail, moveTo, IsPaused] at h
  | pausedAtEnd ran k _ _ => exact .inl rfl
  | completed ran k _ _ => exact .inl rfl

theorem act_standing (engine : Engine) (session : Session) (j : Journal) {action : Action}
    (h : action.isProceed = false)
    : (session.act engine j action).1.status = session.status ∧
      (session.act engine j action).1.cursor = session.cursor ∧
      (session.act engine j action).1.agent = session.agent := by
  cases action with
  | setBreakpoint step =>
    simp only [act, setBreakpoint]
    split <;> exact ⟨rfl, rfl, rfl⟩
  | clearBreakpoint step => exact ⟨rfl, rfl, rfl⟩
  | proceed => cases h
  | setVariable name value =>
    simp only [act, setVariable]
    split <;> exact ⟨rfl, rfl, rfl⟩
  | view => exact ⟨rfl, rfl, rfl⟩
  | trace => exact ⟨rfl, rfl, rfl⟩

end Session

namespace Sessions

/-- One of the replies to letting a session go on has told where it waits now. -/
def Announced (session : Session) (past : List (Operation × Reply)) : Prop :=
  ∃ view,
    (.act session.id .proceed, .shown (.ok view)) ∈ past ∧
    view.status = session.status ∧
    view.cursor = session.cursor ∧
    view.nextStep = session.view.nextStep

theorem Announced.congr {session next : Session} {past : List (Operation × Reply)}
    (h : Announced session past) (hid : next.id = session.id)
    (hstanding : next.status = session.status ∧ next.cursor = session.cursor ∧
      next.agent = session.agent)
    (more : List (Operation × Reply))
    : Announced next (past ++ more) := by
  obtain ⟨view, hmem, hstatus, hcursor, hnext⟩ := h
  obtain ⟨hs, hc, ha⟩ := hstanding
  refine ⟨view, ?_, hstatus.trans hs.symm, hcursor.trans hc.symm, ?_⟩
  . rw [hid]
    exact List.mem_append_left more hmem
  . rw [hnext]
    simp only [Session.view, Session.remaining, hc, ha]

theorem find?_proceed {t : Sessions} {id : SessionId} {session : Session}
    (hfind : t.find? id = some session)
    : (t.proceed id).2.find? id
        =
      some ({ session with lastUsed := t.idleClock }.proceed t.engine t.journal).2.1 ∧
      (t.proceed id).2.journal
        =
      ({ session with lastUsed := t.idleClock }.proceed t.engine t.journal).2.2 := by
  refine ⟨?_, perform_act_journal hfind .proceed⟩
  have hnext := find?_perform_act t id id .proceed
  rw [if_pos rfl, hfind] at hnext
  exact hnext

theorem proceed_reply {t : Sessions} {id : SessionId} {session : Session}
    (hfind : t.find? id = some session)
    (hok : ({ session with lastUsed := t.idleClock }.proceed t.engine t.journal).1 = .ok ())
    : (t.perform (.act id .proceed)).1
        =
      .shown (.ok ({ session with lastUsed := t.idleClock }.proceed t.engine t.journal).2.1.view) := by
  simp only [perform, act, proceed, use, hfind]
  rw [hok]
  rfl

/-- A session that is paused after an operation was announced before it, or is announced by it. -/
theorem perform_announced {t : Sessions} {id : SessionId} {session next : Session}
    {past : List (Operation × Reply)} (op : Operation) (hid : id.number < t.started)
    (hfind : t.find? id = some session) (hnext : (t.perform op).2.find? id = some next)
    (h : session.IsPaused → Announced session past) (hpaused : next.IsPaused)
    : Announced next (past ++ [(op, (t.perform op).1)]) := by
  have hsame (hstill : (t.perform op).2.find? id = t.find? id)
      : Announced next (past ++ [(op, (t.perform op).1)]) := by
    rw [hnext, hfind, Option.some.injEq] at hstill
    subst hstill
    exact (h hpaused).congr rfl ⟨rfl, rfl, rfl⟩ _
  cases op with
  | start source input => exact hsame (find?_perform_start t source input hid).1
  | stop other =>
    by_cases hother : other = id
    . rw [hother, find?_stop] at hnext
      cases hnext
    . exact hsame (find?_perform_stop t hother).1
  | act other action =>
    by_cases hother : other = id
    . subst hother
      rw [find?_perform_act, if_pos rfl, hfind, Option.map_some, Option.some.injEq] at hnext
      have hnextid : next.id = session.id := by
        rw [← hnext, Session.act_id]
      cases hproceed : action.isProceed with
      | true =>
        obtain rfl : action = .proceed := by
          cases action <;> first | rfl | cases hproceed
        change ({ session with lastUsed := t.idleClock }.proceed t.engine t.journal).2.1 = next
          at hnext
        have hreply := Session.proceed_isPaused (by rw [hnext]; exact hpaused)
        cases hreply with
        | inl hok =>
          refine ⟨next.view, ?_, rfl, rfl, rfl⟩
          rw [proceed_reply hfind hok, hnext, hnextid, id_of_find? hfind]
          exact List.mem_append_right past (List.mem_singleton_self _)
        | inr hrefused =>
          rw [hnext] at hrefused
          subst hrefused
          exact (h hpaused).congr rfl ⟨rfl, rfl, rfl⟩ _
      | false =>
        have hstanding := Session.act_standing t.engine { session with lastUsed := t.idleClock }
          t.journal hproceed
        rw [hnext] at hstanding
        apply Announced.congr _ hnextid hstanding
        apply h
        unfold Session.IsPaused at hpaused ⊢
        rw [hstanding.1] at hpaused
        exact hpaused
    . exact hsame (by rw [find?_perform_act, if_neg hother])

theorem run_announced {t : Sessions} {id : SessionId} {session last : Session}
    {past : List (Operation × Reply)} (ops : List Operation) (hid : id.number < t.started)
    (hfind : t.find? id = some session) (h : session.IsPaused → Announced session past)
    (hlast : (t.run ops).2.find? id = some last) (hpaused : last.IsPaused)
    : Announced last (past ++ ops.zip (t.run ops).1) := by
  -- each operation moves from the operations to come to the past
  induction ops generalizing t session past with
  | nil =>
    obtain rfl : session = last := by
      rw [← Option.some.injEq, ← hfind, ← hlast]
      rfl
    simpa [run] using h hpaused
  | cons op rest ih =>
    rw [run_cons] at hlast ⊢
    have hidnext := Nat.lt_of_lt_of_le hid (started_le_perform t op)
    rw [List.zip_cons_cons, List.append_cons]
    cases hnext : (t.perform op).2.find? id with
    | none =>
      rw [find?_run_eq_none hidnext hnext rest] at hlast
      cases hlast
    | some next => exact ih hidnext hnext (perform_announced op hid hfind hnext h) hlast

/--
A step with a breakpoint is run only as the first one, by a session that waits at it. Outputs are
rendered in spite of the breakpoint at the end only by a session that waits there. In both cases an
earlier reply has told that the session waits.
-/
theorem breakpoints_announced {t t' : Sessions} {agent : Agent} {input : Json} {id : SessionId}
    (fresh : t.Fresh) (started : t.startAgent agent input = (.ok id, t')) {ops : List Operation}
    {session : Session} (registered : (t'.run ops).2.find? id = some session)
    : let (replies, now) := t'.run ops
      let after := (now.proceed id).2
      let ran := session.stepsRun now.engine now.journal
      ∃ next,
        after.find? id = some next ∧
        session.Runs now.engine now.journal ran next after.journal ∧
        (∀ i step, ran[i]? = some step → step.id ∈ session.breakpoints →
          i = 0 ∧
          session.status = .pausedAtBreakpoint ∧
          session.agent.steps[session.cursor]? = some step ∧
          Announced session (ops.zip replies)) ∧
        (next.result ≠ session.result → Session.endBreakpoint ∈ session.breakpoints →
          session.status = .pausedAtEnd ∧
          Announced session (ops.zip replies)) := by
  obtain ⟨rfl, bindings, time, _, hopened, _, _, hstarted⟩ := startAgent_ok fresh started
  have hready : (t.opened agent bindings time).status = .ready := rfl
  have hfresh : (t.opened agent bindings time).IsPaused →
      Announced (t.opened agent bindings time) [] := by
    simp [Session.IsPaused, hready]
  have hid : t.started < t'.started := by
    rw [hstarted]
    exact Nat.lt_succ_self t.started
  have hannounced (hpaused : session.IsPaused) : Announced session (ops.zip (t'.run ops).1) :=
    run_announced ops hid hopened hfresh registered hpaused
  generalize t'.run ops = ran at registered hannounced
  obtain ⟨replies, now⟩ := ran
  dsimp only at registered hannounced ⊢
  have hruns := Session.proceed_runs now.engine { session with lastUsed := now.idleClock } now.journal
  rw [Session.stepsRun_used] at hruns
  obtain ⟨hnext, hjournal⟩ := find?_proceed registered
  rw [hjournal]
  refine ⟨_, hnext, hruns.of_used, ?_, ?_⟩
  . intro i step hstep hbreak
    obtain ⟨hfirst, hstatus, hcursor⟩ := Session.waits_of_stepsRun hstep hbreak
    exact ⟨hfirst, hstatus, hcursor, hannounced (.inl hstatus)⟩
  . intro hresult hbreak
    have hstatus : { session with lastUsed := now.idleClock }.status = .pausedAtEnd :=
      Session.waits_of_result hresult hbreak
    exact ⟨hstatus, hannounced (.inr hstatus)⟩

theorem breakpoints_announced_of_twoCalls
    : let ops : List Operation := [.act ⟨0⟩ (.setBreakpoint "second"), .act ⟨0⟩ .proceed]
      let (replies, now) := (counting.startAgent twoCalls .null).2.run ops
      ∃ session step,
        now.find? ⟨0⟩ = some session ∧
        (session.stepsRun now.engine now.journal)[0]? = some step ∧
        step.id ∈ session.breakpoints ∧
        Announced session (ops.zip replies) := by
  intro ops
  have heval : (((counting.startAgent twoCalls .null).2.run ops).2.find? ⟨0⟩).map (fun session =>
      (session.breakpoints,
        (session.stepsRun ((counting.startAgent twoCalls .null).2.run ops).2.engine
          ((counting.startAgent twoCalls .null).2.run ops).2.journal).map (·.id)))
      = some (["second"], ["second"]) := by
    decide +kernel
  obtain ⟨session, hfind, hsession⟩ := Option.map_eq_some_iff.mp heval
  rw [Prod.mk.injEq, List.map_eq_singleton_iff] at hsession
  obtain ⟨hbreakpoints, step, hran, hid⟩ := hsession
  have fresh : counting.Fresh := fresh_of_live_nil rfl
  have started : counting.startAgent twoCalls .null
      = (.ok ⟨0⟩, (counting.startAgent twoCalls .null).2) := rfl
  obtain ⟨_, _, _, hsteps, _⟩ := breakpoints_announced fresh started hfind
  have hfirst : (session.stepsRun ((counting.startAgent twoCalls .null).2.run ops).2.engine
      ((counting.startAgent twoCalls .null).2.run ops).2.journal)[0]? = some step := by
    rw [hran]
    rfl
  have hbreak : step.id ∈ session.breakpoints := by
    rw [hbreakpoints, hid]
    exact List.mem_singleton_self _
  obtain ⟨_, _, _, hannounced⟩ := hsteps 0 step hfirst hbreak
  exact ⟨session, step, hfind, hfirst, hbreak, hannounced⟩

end Sessions

end Runbook
