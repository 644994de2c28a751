import Runbook.Proofs.Session.Lifecycle

/-!
This module contains the reason why an operation that is refused can be forgotten: it leaves the
table and its sessions as they were.
-/

namespace Runbook

namespace Session

def untimed (session : Session) : Session :=
  { session with lastUsed := 0 }

variable {engine : Engine} {session : Session} {j : Journal}

theorem setBreakpoint_eq_of_error {step : String} {error : SessionError}
    (h : (session.setBreakpoint step j).1 = .error error)
    : (session.setBreakpoint step j).2 = (session, j) := by
  unfold setBreakpoint at h ⊢
  split at h
  . next hunknown => rw [if_pos hunknown]
  . cases h

theorem setVariable_eq_of_error {name : String} {value : Json} {error : SessionError}
    (h : (session.setVariable name value j).1 = .error error)
    : (session.setVariable name value j).2 = (session, j) := by
  unfold setVariable at h ⊢
  split at h
  . next hterminal => rw [if_pos hterminal]
  . cases h

theorem proceed_eq_of_error {error : SessionError}
    (h : (session.proceed engine j).1 = .error error)
    (hrefused : ∀ failure, error ≠ .execution failure)
    : (session.proceed engine j).2 = (session, j) := by
  have hproceeds := session.proceeds engine j
  generalize session.proceed engine j = answer at hproceeds h
  cases hproceeds with
  | refused _ => rfl
  | pausedAtStep step ran k _ => cases h
  | failed failure ran k _ =>
    cases h
    exact absurd rfl (hrefused failure)
  | pausedAtEnd ran k _ _ => cases h
  | completed ran k _ _ => cases h

end Session

namespace Sessions

/-- The error that an operation was answered with. -/
def Reply.error? : Reply → Option SessionError
  | started (.error error) => some error
  | done (.error error) => some error
  | cleared (.error error) => some error
  | shown (.error error) => some error
  | traced (.error error) => some error
  | _ => none

/--
Whether an error says that an operation was not carried out. A step of the agent may have failed
instead, but not while a session is started.
-/
def Operation.isRefusedBy : Operation → SessionError → Bool
  | start _ _, _ => true
  | _, .execution _ => false
  | _, _ => true

/-- A table that has the sessions it had before, as they were before. -/
structure Unchanged (before after : Sessions) : Prop where
  ids : after.ids = before.ids
  sessions : ∀ id,
    (after.find? id).map Session.untimed = (before.find? id).map Session.untimed
  calls : after.journal.calls = before.journal.calls

variable {t : Sessions}

theorem Unchanged.of_live {after : Sessions} (hlive : after.live = t.live)
    (hcalls : after.journal.calls = t.journal.calls)
    : t.Unchanged after := by
  refine ⟨?_, ?_, hcalls⟩
  . unfold Sessions.ids
    rw [hlive]
  . intro id
    unfold find?
    rw [hlive]

theorem Unchanged.use {id : SessionId} {session : Session} (hfind : t.find? id = some session)
    (lastUsed : Nat)
    : t.Unchanged (t.replace { session with lastUsed }) := by
  refine ⟨?_, ?_, rfl⟩
  . unfold Sessions.ids replace
    dsimp only
    rw [List.map_map]
    apply List.map_congr_left
    intro other _
    dsimp only [Function.comp]
    split
    . next hid => exact hid.symm
    . rfl
  . intro other
    rw [find?_replace]
    split
    . next hid =>
      have hother : id = other := by
        rw [← id_of_find? hfind]
        exact hid
      rw [← hother, hfind]
      rfl
    . rfl

theorem act_eq_of_error {id : SessionId} {session : Session} {action : Session.Action}
    {error : SessionError} (hfind : t.find? id = some session)
    (herror : (t.perform (.act id action)).1.error? = some error)
    (hrefused : (Operation.act id action).isRefusedBy error)
    : { session with lastUsed := t.idleClock }.act t.engine t.journal action
        =
      ({ session with lastUsed := t.idleClock }, t.journal) := by
  cases action with
  | setBreakpoint step =>
    simp only [perform, act, setBreakpoint, use, hfind] at herror
    cases hreply : ({ session with lastUsed := t.idleClock }.setBreakpoint step t.journal).1 with
    | ok => simp [hreply, Reply.error?] at herror
    | error error => exact Session.setBreakpoint_eq_of_error hreply
  | clearBreakpoint step => simp [perform, act, clearBreakpoint, use, hfind, Reply.error?] at herror
  | proceed =>
    simp only [perform, act, proceed, use, hfind] at herror
    cases hreply : ({ session with lastUsed := t.idleClock }.proceed t.engine t.journal).1 with
    | ok => simp [hreply, Reply.error?, Except.map] at herror
    | error error =>
      apply Session.proceed_eq_of_error hreply
      rintro failure rfl
      simp only [hreply, Reply.error?, Except.map, Option.some.injEq] at herror
      rw [← herror] at hrefused
      cases hrefused
  | setVariable name value =>
    simp only [perform, act, setVariable, use, hfind] at herror
    cases hreply : ({ session with lastUsed := t.idleClock }.setVariable name value t.journal).1 with
    | ok => simp [hreply, Reply.error?] at herror
    | error error => exact Session.setVariable_eq_of_error hreply
  | view => simp [perform, act, view, use, hfind, Reply.error?] at herror
  | trace => simp [perform, act, trace, use, hfind, Reply.error?] at herror

/-- An operation that is refused leaves all sessions as they were. -/
theorem unchanged_of_refused {op : Operation} {error : SessionError}
    (herror : (t.perform op).1.error? = some error) (hrefused : op.isRefusedBy error)
    : t.Unchanged (t.perform op).2 := by
  cases op with
  | start source input =>
    simp only [perform, start] at herror ⊢
    split
    . exact .of_live rfl rfl
    . next hvalid =>
      rw [hvalid] at herror
      unfold startAgent at herror ⊢
      dsimp only at herror ⊢
      split
      . exact .of_live rfl rfl
      . next hseeded =>
        rw [hseeded] at herror
        cases herror
  | act id action =>
    rw [perform_act]
    cases hfind : t.find? id with
    | none => exact .of_live rfl rfl
    | some session =>
      dsimp only
      rw [act_eq_of_error hfind herror hrefused]
      exact .use hfind t.idleClock
  | stop id =>
    simp only [perform, stop] at herror ⊢
    split
    . exact .of_live rfl rfl
    . next hfind =>
      rw [hfind] at herror
      cases herror

theorem unchanged_of_unknown_breakpoint
    : let now := (counting.start twoStepsText .null).2
      let op : Operation := .act ⟨0⟩ (.setBreakpoint "third")
      now.ids = [⟨0⟩] ∧
      (now.perform op).1.error? = some (.unknownStep "two" "third") ∧
      now.Unchanged (now.perform op).2 := by
  intro now op
  have hids : now.ids = [⟨0⟩] := by decide +kernel
  have herror : (now.perform op).1.error? = some (.unknownStep "two" "third") := by
    decide +kernel
  exact ⟨hids, herror, unchanged_of_refused herror rfl⟩

end Sessions

end Runbook
