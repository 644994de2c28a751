import Runbook.Proofs.Masking
import Runbook.Proofs.Session.Operation
import Runbook.Proofs.Run.Step

/-!
This module contains the reason why a secret does not show in a session: as long as its name is not
bound to anything else, all that is written down or looked at has the secret masked.
-/

namespace Runbook

open Masking

/-- The text of the error that a happening tells of. -/
def Happening.error? : Happening → Option String
  | stepFailed _ _ _ error => some error
  | _ => none

def Trace.Hides (trace : Trace) (v : String) : Prop :=
  ∀ event ∈ trace.events, ∀ error, event.what.error? = some error → ¬ v.toList <:+: error.toList

theorem Trace.mem_push {trace : Trace} {event other : Event}
    (h : other ∈ (trace.push event).events)
    : other ∈ trace.events ∨ other = event := by
  unfold push at h
  split at h
  . rw [List.mem_append, List.mem_singleton] at h
    cases h with
    | inl hold =>
      left
      exact List.mem_of_mem_drop hold
    | inr hnew =>
      right
      exact hnew
  . rw [List.mem_append, List.mem_singleton] at h
    exact h

theorem Trace.Hides.push {trace : Trace} {v : String} (h : trace.Hides v) {event : Event}
    (hevent : ∀ error, event.what.error? = some error → ¬ v.toList <:+: error.toList)
    : (trace.push event).Hides v := by
  intro other hmem
  cases mem_push hmem with
  | inl hold => exact h other hold
  | inr hnew =>
    rw [hnew]
    exact hevent

theorem Happening.error?_timeless (what : Happening) : what.timeless.error? = what.error? := by
  cases what <;> rfl

variable {name v : String}

/-- A state of a run in which `v` is the secret of a name and does not show. -/
structure RunState.Hides (s : RunState) (name v : String) : Prop where
  bindings : s.bindings.Holds name v
  trace : s.trace.Hides v

namespace Engine

theorem runStep_hides (hmask : Maskable v.toList) (engine : Engine) (step : Agent.Step)
    (unsaved : step.save ≠ some name) {s : RunState} (h : s.Hides name v)
    : (engine.runStep step s).2.Hides name v := by
  constructor
  . rw [runStep_bindings]
    unfold Agent.Step.bindResult
    split
    . split
      . next other hsave =>
        apply h.bindings.set
        intro hother
        rw [hother] at hsave
        exact unsaved hsave
      . exact h.bindings
    . exact h.bindings
  -- the error was masked when it was recorded, and the name still had its secret then
  . obtain ⟨event, htrace, hevent⟩ := engine.runStep_trace step s
    rw [htrace]
    apply h.trace.push
    intro error herror
    rw [← Happening.error?_timeless, hevent] at herror
    unfold Agent.Step.happening at herror
    split at herror
    . simp [Happening.error?] at herror
    . simp [Happening.error?] at herror
    . simp only [Happening.error?, Option.some.injEq] at herror
      rw [← herror]
      exact hmask.not_infix_mask h.bindings.mem_secretValues _

theorem advance_hides (hmask : Maskable v.toList) (engine : Engine) (fields : List LogField)
    (step : Agent.Step) (unsaved : step.save ≠ some name) {s : RunState} (h : s.Hides name v)
    : (engine.advance fields step s).2.Hides name v := by
  have hstep := runStep_hides hmask engine step unsaved h
  unfold advance
  generalize engine.runStep step s = ran at hstep
  obtain ⟨result, s'⟩ := ran
  cases result with
  | ok outcome => exact hstep
  | error error =>
    dsimp only
    split
    . exact ⟨hstep.bindings, hstep.trace⟩
    . exact hstep

end Engine

namespace Session

/-- A session in which `v` is the secret of a name and does not show. -/
structure Hides (name v : String) (session : Session) : Prop where
  unsaved : ∀ step ∈ session.agent.steps, step.save ≠ some name
  bindings : session.bindings.Holds name v
  trace : session.trace.Hides v
  error : ∀ error, session.error = some error → ¬ v.toList <:+: error.toList

theorem Hides.note {session : Session} (h : Hides name v session) {what : Happening}
    (hwhat : what.error? = none) (time : Moment)
    : Hides name v (session.note what time) := by
  refine ⟨h.unsaved, h.bindings, ?_, h.error⟩
  apply h.trace.push
  intro error herror
  rw [hwhat] at herror
  cases herror

theorem runSteps_hides (hmask : Maskable v.toList) (engine : Engine) (paused : Bool)
    (steps : List Agent.Step) (session : Session) (j : Journal)
    (hsteps : ∀ step ∈ steps, step.save ≠ some name) (h : Hides name v session)
    : Hides name v (runSteps engine paused steps session j).2.1 := by
  induction steps generalizing paused session j with
  | nil => exact h
  | cons step rest ih =>
    have hstate : (session.runState j).Hides name v := ⟨h.bindings, h.trace⟩
    have hadvance := Engine.advance_hides hmask engine [session.field] step
      (hsteps step (by simp)) hstate
    unfold runSteps
    split
    . exact h
    . split
      . next outcome s hresult =>
        rw [hresult] at hadvance
        apply ih
        . intro other hmem
          exact hsteps other (List.mem_cons_of_mem step hmem)
        . exact ⟨h.unsaved, hadvance.bindings, hadvance.trace, h.error⟩
      . next error s hresult =>
        rw [hresult] at hadvance
        exact ⟨h.unsaved, hadvance.bindings, hadvance.trace, h.error⟩

theorem conclude_hides (hmask : Maskable v.toList) (engine : Engine) (atEnd : Bool) (start : Nat)
    (run : Halt × Session × Journal) (h : Hides name v run.2.1)
    : Hides name v (conclude engine atEnd start run).2.1 := by
  obtain ⟨halt, session, j⟩ := run
  have hnote (what : Happening) (hwhat : what.error? = none) := (h.note hwhat j.now).trace
  cases halt with
  | breakpoint step => exact ⟨h.unsaved, h.bindings, hnote (.paused step) rfl, h.error⟩
  | failure error =>
    refine ⟨h.unsaved, h.bindings, hnote (.finished false (j.clock - start)) rfl, ?_⟩
    intro text htext
    have hmasked : session.bindings.maskText error.message = text := by
      simpa [conclude, fail, note, moveTo] using htext
    rw [← hmasked]
    exact hmask.not_infix_mask h.bindings.mem_secretValues _
  | finished =>
    unfold conclude
    dsimp only
    split
    . exact ⟨h.unsaved, h.bindings, hnote (.paused none) rfl, h.error⟩
    . exact ⟨h.unsaved, h.bindings, hnote (.finished true (j.clock - start)) rfl, h.error⟩

theorem proceed_hides (hmask : Maskable v.toList) (engine : Engine) (session : Session)
    (j : Journal) (h : Hides name v session)
    : Hides name v (session.proceed engine j).2.1 := by
  by_cases hwait : session.status.canProceed
  . rw [proceed_eq_conclude engine session j hwait]
    apply conclude_hides hmask
    apply runSteps_hides hmask
    . intro step hmem
      exact h.unsaved step (List.mem_of_mem_drop hmem)
    . unfold begin
      dsimp only
      split
      . exact ⟨h.unsaved, h.bindings, h.trace, h.error⟩
      . have hresumed : Hides name v (session.note .resumed j.now) := h.note rfl j.now
        exact ⟨hresumed.unsaved, hresumed.bindings, hresumed.trace, hresumed.error⟩
  . unfold proceed
    rw [if_neg hwait]
    exact h

theorem bind_holds {b : Bindings} (h : b.Holds name v) (other : String) (value : Json)
    (hother : other = name → String.ofList (Template.valueText value) = v)
    : (bind b other value).Holds name v := by
  unfold bind
  split
  . exact h.setSecret hother
  . next hplain =>
    apply h.set
    intro hname
    rw [hname] at hplain
    exact hplain h.1

/-- Everything that can be asked of a session keeps the secret, unless it binds its name anew. -/
theorem act_hides (hmask : Maskable v.toList) (engine : Engine) (session : Session) (j : Journal)
    (action : Action)
    (unset : ∀ value, action = .setVariable name value →
      String.ofList (Template.valueText value) = v)
    (h : Hides name v session)
    : Hides name v (session.act engine j action).1 := by
  cases action with
  | setBreakpoint step =>
    simp only [act, setBreakpoint]
    split
    . exact h
    . exact ⟨h.unsaved, h.bindings, h.trace, h.error⟩
  | clearBreakpoint step => exact ⟨h.unsaved, h.bindings, h.trace, h.error⟩
  | proceed => exact proceed_hides hmask engine session j h
  | setVariable other value =>
    simp only [act, setVariable]
    split
    . exact h
    . apply Hides.note
      . refine ⟨h.unsaved, ?_, h.trace, h.error⟩
        apply bind_holds h.bindings
        rintro rfl
        exact unset value rfl
      . rfl
  | view => exact h
  | trace => exact h

end Session

/-- All strings that a view of a session shows for its bindings, its result and its error. -/
def SessionView.strings (view : SessionView) : List String :=
  Json.fieldStrings view.bindings ++ (view.result.map Json.strings).getD [] ++ view.error.toList

theorem Session.Hides.not_infix_of_mem_view {session : Session} (hmask : Maskable v.toList)
    (h : Hides name v session)
    : ∀ s ∈ session.view.strings, ¬ v.toList <:+: s.toList := by
  intro s hs
  unfold SessionView.strings at hs
  rw [List.mem_append, List.mem_append, or_assoc] at hs
  obtain hbindings | hresult | herror := hs
  . exact h.bindings.not_infix_of_mem_masked hmask s hbindings
  . unfold view at hresult
    cases hvalue : session.result with
    | none => simp [hvalue] at hresult
    | some value =>
      rw [hvalue] at hresult
      exact hmask.not_infix_of_mem_strings h.bindings.mem_secretValues value s hresult
  . rw [Option.mem_toList] at herror
    exact h.error s herror

namespace Sessions

/--
A secret that a session has at its start never shows in it, unless a step saves its value under the
name of the secret or the name is set to another text.
-/
theorem secret_stays_hidden {t t' : Sessions} {agent : Agent} {input : Json} {bindings : Bindings}
    {id : SessionId} (fresh : t.Fresh) (started : t.startAgent agent input = (.ok id, t'))
    (seeded : (t.engine.seed agent input).1 = .ok bindings) (secret : bindings.isSecret name)
    (value : bindings.get? name = some (.str v)) (hmask : Maskable v.toList)
    (unsaved : ∀ step ∈ agent.steps, step.save ≠ some name) {ops : List Operation}
    (unset : ∀ value, .act id (.setVariable name value) ∈ ops →
      String.ofList (Template.valueText value) = v)
    (unstopped : .stop id ∉ ops)
    : let after := (t'.run ops).2
      ∃ view trace,
        (after.view id).1 = .ok view ∧
        (after.trace id).1 = .ok trace ∧
        (∀ s ∈ view.strings, ¬ v.toList <:+: s.toList) ∧
        ∀ event ∈ trace.events, ∀ error,
          event.what.error? = some error → ¬ v.toList <:+: error.toList := by
  dsimp only
  obtain ⟨rfl, seed, time, hseed, hfind, _, _, hstarted⟩ := startAgent_ok fresh started
  rw [seeded] at hseed
  cases hseed
  have hopened : Session.Hides name v (t.opened agent bindings time) := by
    refine ⟨unsaved, ⟨secret, .str v, value, String.ofList_toList⟩, ?_, ?_⟩
    . apply Trace.Hides.push
      . intro event hmem
        cases hmem
      . intro error herror
        cases herror
    . intro error herror
      cases herror
  obtain ⟨last, hlast, hides⟩ : ∃ last,
      (t'.run ops).2.find? ⟨t.started⟩ = some last ∧ Session.Hides name v last := by
    apply find?_run _ _ unstopped _ hfind hopened
    . intro session lastUsed h
      exact ⟨h.unsaved, h.bindings, h.trace, h.error⟩
    . intro action hmem engine session j h
      apply Session.act_hides hmask engine session j action _ h
      rintro value rfl
      exact unset value hmem
    . rw [hstarted]
      exact Nat.lt_succ_self t.started
  refine ⟨{ last with lastUsed := (t'.run ops).2.idleClock }.view, last.trace, ?_, ?_, ?_, ?_⟩
  . simp [view, use, hlast]
  . simp [trace, use, hlast]
  . have hused : Session.Hides name v { last with lastUsed := (t'.run ops).2.idleClock } :=
      ⟨hides.unsaved, hides.bindings, hides.trace, hides.error⟩
    exact hused.not_infix_of_mem_view hmask
  . exact hides.trace

def telling : Sessions where
  engine :=
    { registry := Registry.register {} "tool" none fun _ request =>
        { result := .ok (.obj request.bindings) }
      secrets := fun _ => some "tok-abcdef" }

def saving : Agent where
  id := "saving"
  version := "1.0"
  secrets := [{ name := "TOKEN", source := "env:TOKEN" }]
  steps :=
    [{ id := "first", kind := "tool", save := some "answer" }, { id := "second", kind := "tool" }]

theorem maskable_token : Maskable "tok-abcdef".toList := by
  constructor
  . decide +kernel
  . decide +kernel
  . decide +kernel
  . decide +kernel

theorem secret_stays_hidden_of_saving
    : let ops : List Operation :=
        [.act ⟨0⟩ (.setBreakpoint "second"), .act ⟨0⟩ .proceed,
          .act ⟨0⟩ (.setVariable "other" (.str "value")), .act ⟨0⟩ .proceed]
      ∃ view,
        (((telling.startAgent saving .null).2.run ops).2.view ⟨0⟩).1 = .ok view ∧
        ∀ s ∈ view.strings, ¬ "tok-abcdef".toList <:+: s.toList := by
  intro ops
  have fresh : telling.Fresh := fresh_of_live_nil rfl
  have started : telling.startAgent saving .null
      = (.ok ⟨0⟩, (telling.startAgent saving .null).2) := rfl
  have seeded : (telling.engine.seed saving .null).1
      = .ok (Bindings.setSecret {} "TOKEN" "tok-abcdef") := rfl
  have unsaved : ∀ step ∈ saving.steps, step.save ≠ some "TOKEN" := by
    simp [saving]
  have unset : ∀ value, .act ⟨0⟩ (.setVariable "TOKEN" value) ∈ ops →
      String.ofList (Template.valueText value) = "tok-abcdef" := by
    simp [ops]
  have unstopped : .stop ⟨0⟩ ∉ ops := by
    simp [ops]
  obtain ⟨view, _, hview, _, hidden, _⟩ := secret_stays_hidden fresh started seeded rfl rfl
    maskable_token unsaved unset unstopped
  exact ⟨view, hview, hidden⟩

theorem secret_shows_once_set
    : let ops : List Operation :=
        [.act ⟨0⟩ (.setBreakpoint "second"), .act ⟨0⟩ .proceed,
          .act ⟨0⟩ (.setVariable "TOKEN" (.str "other-value"))]
      ∃ bindings view,
        Maskable "tok-abcdef".toList ∧
        (telling.engine.seed saving .null).1 = .ok bindings ∧
        bindings.isSecret "TOKEN" ∧
        bindings.get? "TOKEN" = some (.str "tok-abcdef") ∧
        (((telling.startAgent saving .null).2.run ops).2.view ⟨0⟩).1 = .ok view ∧
        "tok-abcdef" ∈ view.strings := by
  refine ⟨_, _, maskable_token, rfl, rfl, rfl, rfl, ?_⟩
  decide +kernel

end Sessions

end Runbook
