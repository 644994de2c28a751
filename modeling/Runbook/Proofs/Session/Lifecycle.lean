import Runbook.Proofs.Session.Breakpoint
import Runbook.Proofs.Session.Reach

/-!
This module contains what is true of a session whenever nobody works on it, and in which direction
it goes on: its cursor only grows, and its end is final.
-/

namespace Runbook

namespace Session

def CanBreakAt (session : Session) (step : String) : Prop :=
  step = endBreakpoint ∨ step ∈ session.agent.steps.map (·.id)

/-- What is true of a session whenever nobody works on it. -/
structure Settled (session : Session) : Prop where
  waits : session.status ≠ .running ∧ session.status ≠ .stopped
  cursor : session.cursor ≤ session.agent.steps.length
  atStart : session.status = .ready → session.cursor = 0
  atStep : session.status = .pausedAtBreakpoint ∨ session.status = .failed →
    session.cursor < session.agent.steps.length
  atEnd : session.status = .pausedAtEnd ∨ session.status = .completed →
    session.cursor = session.agent.steps.length
  result : session.result.isSome ↔ session.status = .completed
  error : session.error.isSome ↔ session.status = .failed
  breakpoints : ∀ step ∈ session.breakpoints, session.CanBreakAt step

/-- How a session stands to what becomes of it later. -/
structure Precedes (before after : Session) : Prop where
  agent : after.agent = before.agent
  cursor : before.cursor ≤ after.cursor
  final : before.status.isTerminal →
    after.status = before.status ∧ after.cursor = before.cursor ∧
      after.bindings = before.bindings ∧ after.result = before.result ∧ after.error = before.error

theorem Precedes.of_frame (session : Session) (trace : Trace) (breakpoints : List String)
    (lastUsed : Nat)
    : session.Precedes { session with trace, breakpoints, lastUsed } :=
  ⟨rfl, Nat.le_refl _, fun _ => ⟨rfl, rfl, rfl, rfl, rfl⟩⟩

theorem Precedes.refl (session : Session) : session.Precedes session :=
  .of_frame session _ _ _

theorem Precedes.trans {first second third : Session} (h₁ : Precedes first second)
    (h₂ : Precedes second third)
    : Precedes first third := by
  refine ⟨h₂.agent.trans h₁.agent, Nat.le_trans h₁.cursor h₂.cursor, ?_⟩
  intro hterminal
  obtain ⟨hstatus, hcursor, hbindings, hresult, herror⟩ := h₁.final hterminal
  rw [← hstatus] at hterminal
  obtain ⟨hstatus', hcursor', hbindings', hresult', herror'⟩ := h₂.final hterminal
  exact ⟨hstatus'.trans hstatus, hcursor'.trans hcursor, hbindings'.trans hbindings,
    hresult'.trans hresult, herror'.trans herror⟩

/-- A session that has not come to an end. -/
structure Underway (session : Session) : Prop where
  result : session.result = none
  error : session.error = none
  breakpoints : ∀ step ∈ session.breakpoints, session.CanBreakAt step

variable {engine : Engine} {session : Session} {j : Journal}

theorem Settled.underway (h : session.Settled) (hwait : session.status.canProceed)
    : session.Underway := by
  have hstatus : session.status ≠ .completed ∧ session.status ≠ .failed := by
    constructor <;> intro hstatus <;> rw [hstatus] at hwait <;> cases hwait
  refine ⟨?_, ?_, h.breakpoints⟩
  . rw [← Option.not_isSome_iff_eq_none, h.result]
    exact hstatus.1
  . rw [← Option.not_isSome_iff_eq_none, h.error]
    exact hstatus.2

theorem settled_of_status
    (hbreakpoints : ∀ step ∈ session.breakpoints, session.CanBreakAt step)
    (h :
      match session.status with
      | .ready => session.cursor = 0 ∧ session.result = none ∧ session.error = none
      | .pausedAtBreakpoint =>
        session.cursor < session.agent.steps.length ∧ session.result = none ∧ session.error = none
      | .pausedAtEnd =>
        session.cursor = session.agent.steps.length ∧ session.result = none ∧ session.error = none
      | .completed =>
        session.cursor = session.agent.steps.length ∧ session.result.isSome ∧ session.error = none
      | .failed =>
        session.cursor < session.agent.steps.length ∧ session.result = none ∧ session.error.isSome
      | .running => False
      | .stopped => False)
    : session.Settled := by
  cases hstatus : session.status with
  | running => simp [hstatus] at h
  | stopped => simp [hstatus] at h
  | _ =>
    rw [hstatus] at h
    obtain ⟨hcursor, hresult, herror⟩ := h
    refine ⟨?_, ?_, ?_, ?_, ?_, ?_, ?_, hbreakpoints⟩ <;>
      simp [hstatus, hresult, herror, hcursor, Nat.le_of_lt]

theorem Reached.underway {halt : Halt} {ran : Session} {k : Journal}
    (h : session.Reached engine j halt ran k) (hsettled : session.Settled)
    : ran.Underway := by
  obtain ⟨hresult, herror, hbreakpoints⟩ := hsettled.underway h.waited
  obtain ⟨_, _, _, _, hframe⟩ := h.frame
  rw [hframe]
  exact ⟨hresult, herror, hbreakpoints⟩

theorem Reached.cursor {halt : Halt} {ran : Session} {k : Journal}
    (h : session.Reached engine j halt ran k)
    (hcursor : session.cursor ≤ session.agent.steps.length)
    : session.cursor ≤ ran.cursor ∧
      match halt with
      | .finished => ran.cursor = ran.agent.steps.length
      | _ => ran.cursor < ran.agent.steps.length := by
  have hagent : ran.agent = session.agent := by
    obtain ⟨_, _, _, _, hframe⟩ := h.frame
    rw [hframe]
  obtain ⟨left, hsplit, _, hstop⟩ := h.reaches
  have hlength : session.agent.steps.length
      = session.cursor + (session.stepsRun engine j).length + left.length := by
    have hsplit := congrArg List.length hsplit
    rw [remaining, List.length_drop, List.length_append] at hsplit
    omega
  rw [(session.begin_kept j).2.2] at hstop
  rw [hagent]
  cases halt with
  | breakpoint step =>
    have hleft : 0 < left.length := by
      rw [List.length_pos_iff]
      rintro rfl
      cases hstop.2
    dsimp only at hstop ⊢
    omega
  | failure error =>
    have hran := List.length_pos_iff.mpr hstop.1
    dsimp only at hstop ⊢
    omega
  | finished =>
    rw [hstop.2, List.length_nil] at hlength
    dsimp only at hstop ⊢
    omega

theorem Reached.precedes {halt : Halt} {ran next : Session} {k : Journal}
    (h : session.Reached engine j halt ran k)
    (hcursor : session.cursor ≤ session.agent.steps.length)
    (hnext : next.agent = ran.agent ∧ next.cursor = ran.cursor)
    : session.Precedes next := by
  have hagent : ran.agent = session.agent := by
    obtain ⟨_, _, _, _, hframe⟩ := h.frame
    rw [hframe]
  refine ⟨hnext.1.trans hagent, ?_, ?_⟩
  . rw [hnext.2]
    exact (h.cursor hcursor).1
  . intro hterminal
    exact absurd hterminal (SessionStatus.not_isTerminal_of_canProceed h.waited)

theorem proceed_settled (engine : Engine) (j : Journal) (h : session.Settled)
    : (session.proceed engine j).2.1.Settled ∧
      session.Precedes (session.proceed engine j).2.1 := by
  have hproceeds := session.proceeds engine j
  generalize session.proceed engine j = answer at hproceeds
  cases hproceeds with
  | refused _ => exact ⟨h, .refl session⟩
  | pausedAtStep step ran k reached =>
    obtain ⟨hresult, herror, hbreakpoints⟩ := reached.underway h
    refine ⟨?_, reached.precedes h.cursor ⟨rfl, rfl⟩⟩
    exact settled_of_status hbreakpoints ⟨(reached.cursor h.cursor).2, hresult, herror⟩
  | failed error ran k reached =>
    obtain ⟨hresult, _, hbreakpoints⟩ := reached.underway h
    refine ⟨?_, reached.precedes h.cursor ⟨rfl, rfl⟩⟩
    exact settled_of_status hbreakpoints ⟨(reached.cursor h.cursor).2, hresult, rfl⟩
  | pausedAtEnd ran k reached _ =>
    obtain ⟨hresult, herror, hbreakpoints⟩ := reached.underway h
    refine ⟨?_, reached.precedes h.cursor ⟨rfl, rfl⟩⟩
    exact settled_of_status hbreakpoints ⟨(reached.cursor h.cursor).2, hresult, herror⟩
  | completed ran k reached _ =>
    obtain ⟨_, herror, hbreakpoints⟩ := reached.underway h
    refine ⟨?_, reached.precedes h.cursor ⟨rfl, rfl⟩⟩
    exact settled_of_status hbreakpoints ⟨(reached.cursor h.cursor).2, rfl, herror⟩

theorem mem_insertOrdered {text other : String} {texts : List String}
    (h : other ∈ insertOrdered text texts)
    : other = text ∨ other ∈ texts := by
  induction texts with
  | nil => simpa [insertOrdered] using h
  | cons first rest ih =>
    unfold insertOrdered at h
    split at h
    . exact .inr h
    . split at h
      . exact List.mem_cons.mp h
      . rw [List.mem_cons] at h ⊢
        cases h with
        | inl hfirst => exact .inr (.inl hfirst)
        | inr hrest => exact (ih hrest).imp_right .inr

theorem canBreakAt_of_known {step : String}
    (h : ¬ (step ≠ endBreakpoint ∧ (session.agent.findStep step).isNone))
    : session.CanBreakAt step := by
  by_cases hend : step = endBreakpoint
  . exact .inl hend
  . have hfound : session.agent.findStep step ≠ none := by simpa [hend] using h
    right
    simpa [Agent.findStep] using hfound

/-- What an action makes of a session is settled again, and comes after it. -/
theorem act_settled (engine : Engine) (j : Journal) (action : Action) (h : session.Settled)
    : (session.act engine j action).1.Settled ∧
      session.Precedes (session.act engine j action).1 := by
  cases action with
  | setBreakpoint step =>
    simp only [act, setBreakpoint]
    split
    . exact ⟨h, .refl session⟩
    . next hknown =>
      refine ⟨{ h with breakpoints := ?_ }, .of_frame session _ _ _⟩
      intro other hmem
      cases mem_insertOrdered hmem with
      | inr hold => exact h.breakpoints other hold
      | inl hnew =>
        rw [hnew]
        exact canBreakAt_of_known hknown
  | clearBreakpoint step =>
    refine ⟨{ h with breakpoints := ?_ }, .of_frame session _ _ _⟩
    intro other hmem
    exact h.breakpoints other (List.mem_filter.mp hmem).1
  | proceed => exact proceed_settled engine j h
  | setVariable name value =>
    simp only [act, setVariable]
    split
    . exact ⟨h, .refl session⟩
    . next hrunning =>
      refine ⟨{ h with }, rfl, Nat.le_refl _, ?_⟩
      intro hterminal
      exact absurd hterminal hrunning
  | view => exact ⟨h, .refl session⟩
  | trace => exact ⟨h, .refl session⟩

end Session

namespace Sessions

theorem started_le_perform (t : Sessions) (op : Operation)
    : t.started ≤ (t.perform op).2.started := by
  cases op with
  | start source input =>
    simp only [perform, start]
    split
    . exact Nat.le_refl _
    . unfold startAgent
      dsimp only
      split
      . exact Nat.le_refl _
      . exact Nat.le_succ _
  | act id action => exact Nat.le_of_eq (perform_act_started t id action).symm
  | stop id =>
    simp only [perform, stop]
    split <;> exact Nat.le_refl _

theorem started_le_run (t : Sessions) (ops : List Operation)
    : t.started ≤ (t.run ops).2.started := by
  induction ops generalizing t with
  | nil => exact Nat.le_refl _
  | cons op rest ih => exact Nat.le_trans (started_le_perform t op) (ih (t.perform op).2)

theorem find?_stop (t : Sessions) (id : SessionId) : (t.perform (.stop id)).2.find? id = none := by
  unfold perform stop
  dsimp only
  split
  . next hnone => exact hnone
  . simp [find?, erase]

theorem find?_perform_eq_none {t : Sessions} {id : SessionId} (hid : id.number < t.started)
    (h : t.find? id = none) (op : Operation)
    : (t.perform op).2.find? id = none := by
  cases op with
  | start source input => rw [(find?_perform_start t source input hid).1, h]
  | act other action =>
    rw [find?_perform_act]
    split
    . next hother =>
      rw [hother, h]
      rfl
    . exact h
  | stop other =>
    by_cases hother : other = id
    . rw [hother]
      exact find?_stop t id
    . rw [(find?_perform_stop t hother).1, h]

theorem find?_run_eq_none {t : Sessions} {id : SessionId} (hid : id.number < t.started)
    (h : t.find? id = none) (ops : List Operation)
    : (t.run ops).2.find? id = none := by
  induction ops generalizing t with
  | nil => exact h
  | cons op rest ih =>
    rw [run_cons]
    exact ih (Nat.lt_of_lt_of_le hid (started_le_perform t op)) (find?_perform_eq_none hid h op)

theorem find?_run_of_stop {t : Sessions} {id : SessionId} (hid : id.number < t.started)
    {ops : List Operation} (h : .stop id ∈ ops)
    : (t.run ops).2.find? id = none := by
  induction ops generalizing t with
  | nil => cases h
  | cons op rest ih =>
    rw [run_cons]
    have hnext := Nat.lt_of_lt_of_le hid (started_le_perform t op)
    rw [List.mem_cons] at h
    cases h with
    | inl hstop =>
      rw [← hstop] at hnext ⊢
      exact find?_run_eq_none hnext (find?_stop t id) rest
    | inr hrest => exact ih hnext hrest

theorem start_ok {t t' : Sessions} {source : String} {input : Json} {id : SessionId}
    (fresh : t.Fresh) (h : t.start source input = (.ok id, t'))
    : ∃ agent session,
        (Agent.parse source).valid? = .ok agent ∧
        t'.find? id = some session ∧
        session.agent = agent ∧
        session.status = .ready ∧
        session.Settled ∧
        id.number < t'.started := by
  unfold start at h
  dsimp only at h
  split at h
  . simp at h
  . next agent hvalid =>
    have hwritten : (t.write (Agent.parse source).record).Fresh := fresh
    obtain ⟨rfl, bindings, time, _, hfind, _, _, hstarted⟩ := startAgent_ok hwritten h
    refine ⟨agent, _, hvalid, hfind, rfl, rfl, ?_, ?_⟩
    . exact Session.settled_of_status (by simp [opened]) ⟨rfl, rfl, rfl⟩
    . rw [hstarted]
      exact Nat.lt_succ_self _

/--
A session that was started stays in the table until it is stopped. It is settled after any sequence
of operations, and what becomes of it later comes after what it is now.
-/
theorem session_stays_settled {t t' : Sessions} {source : String} {input : Json} {id : SessionId}
    (fresh : t.Fresh) (started : t.start source input = (.ok id, t')) (ops : List Operation)
    : let now := (t'.run ops).2
      ((now.find? id).isSome ↔ .stop id ∉ ops) ∧
      ∀ session, now.find? id = some session →
        (Agent.parse source).valid? = .ok session.agent ∧
        session.Settled ∧
        ∀ more later, (now.run more).2.find? id = some later → session.Precedes later := by
  dsimp only
  obtain ⟨agent, first, hvalid, hfirst, hagent, _, hsettled, hid⟩ := start_ok fresh started
  -- both the state of a session and what it was before are kept in mind along a run
  have hrun {t : Sessions} {before : Session} {ops : List Operation} (hid : id.number < t.started)
      (hfind : t.find? id = some before) (hsettled : before.Settled) (unstopped : .stop id ∉ ops)
      : ∃ after, (t.run ops).2.find? id = some after ∧ after.Settled ∧ before.Precedes after := by
    apply find?_run _ _ unstopped hid hfind ⟨hsettled, .refl before⟩
    . rintro session lastUsed ⟨hsettled, hprecedes⟩
      exact ⟨{ hsettled with }, hprecedes.trans (.of_frame session _ _ _)⟩
    . rintro action _ engine session j ⟨hsettled, hprecedes⟩
      have hact := Session.act_settled engine j action hsettled
      exact ⟨hact.1, hprecedes.trans hact.2⟩
  have hunstopped {t : Sessions} {ops : List Operation} {session : Session}
      (hid : id.number < t.started) (hfind : (t.run ops).2.find? id = some session)
      : .stop id ∉ ops := by
    intro hmem
    rw [find?_run_of_stop hid hmem] at hfind
    cases hfind
  refine ⟨⟨?_, ?_⟩, ?_⟩
  . intro hsome
    obtain ⟨session, hfind⟩ := Option.isSome_iff_exists.mp hsome
    exact hunstopped hid hfind
  . intro unstopped
    obtain ⟨session, hfind, _⟩ := hrun hid hfirst hsettled unstopped
    rw [hfind]
    rfl
  . intro session hfind
    obtain ⟨last, hlast, hlastsettled, hprecedes⟩ :=
      hrun hid hfirst hsettled (hunstopped hid hfind)
    rw [hfind, Option.some.injEq] at hlast
    subst hlast
    refine ⟨?_, hlastsettled, ?_⟩
    . rw [hprecedes.agent, hagent]
      exact hvalid
    . intro more later hlater
      have hnow := Nat.lt_of_lt_of_le hid (started_le_run t' ops)
      obtain ⟨other, hother, _, hlast⟩ :=
        hrun hnow hfind hlastsettled (hunstopped hnow hlater)
      rw [hlater, Option.some.injEq] at hother
      rw [hother]
      exact hlast

def twoStepsText : String :=
  "@agent two v1\ntrigger: manual\nsteps:\n  - id: first\n    kind: tool\n  - id: second\n    kind: tool\n"

theorem start_twoSteps
    : counting.start twoStepsText .null = (.ok ⟨0⟩, (counting.start twoStepsText .null).2) := by
  have hid : (counting.start twoStepsText .null).1.toOption = some ⟨0⟩ := by decide +kernel
  generalize counting.start twoStepsText .null = started at hid
  obtain ⟨reply, t⟩ := started
  cases reply with
  | error error => cases hid
  | ok id =>
    cases hid
    rfl

theorem session_stays_settled_of_twoSteps
    : let ops : List Operation :=
        [.act ⟨0⟩ (.setBreakpoint "second"), .act ⟨0⟩ .proceed, .start twoStepsText .null,
          .stop ⟨1⟩, .act ⟨0⟩ (.setVariable "name" .null), .act ⟨0⟩ .proceed]
      (counting.start twoStepsText .null).1 = .ok ⟨0⟩ ∧
      ∃ session,
        ((counting.start twoStepsText .null).2.run ops).2.find? ⟨0⟩ = some session ∧
        session.Settled := by
  intro ops
  have fresh : counting.Fresh := fresh_of_live_nil rfl
  obtain ⟨hfound, hsettled⟩ := session_stays_settled fresh start_twoSteps ops
  have unstopped : .stop ⟨0⟩ ∉ ops := by simp [ops]
  obtain ⟨session, hfind⟩ := Option.isSome_iff_exists.mp (hfound.mpr unstopped)
  exact ⟨congrArg Prod.fst start_twoSteps, session, hfind, (hsettled session hfind).2.1⟩

end Sessions

end Runbook
