import Runbook.Proofs.LogText
import Runbook.Proofs.Run.Execution
import Runbook.Proofs.Run.Seed

/-!
This module contains what an execution writes to the log. The fields of its records hold safe texts,
numbers and fixed words, but for two: the name of a variable that is left unbound and the error of a
failed attempt are written as they are found.
-/

namespace Runbook

open LogText

/-- All that was logged since a journal was as it was then is of a kind. -/
def Journal.LoggedSince (start : Journal) (P : Record → Prop) (j : Journal) : Prop :=
  ∃ written, j.records = start.records ++ written ∧ ∀ entry ∈ written, P entry.2

namespace Journal

variable {start j k : Journal} {P : Record → Prop}

theorem LoggedSince.refl : LoggedSince j P j :=
  ⟨[], (List.append_nil _).symm, List.forall_mem_nil _⟩

theorem LoggedSince.congr (h : LoggedSince start P j) (heq : k.records = j.records)
    : LoggedSince start P k := by
  unfold LoggedSince
  rw [heq]
  exact h

theorem LoggedSince.writeAll (h : LoggedSince start P j) {records : List Record}
    (hrecords : ∀ record ∈ records, P record)
    : LoggedSince start P (j.writeAll records) := by
  obtain ⟨written, heq, hwritten⟩ := h
  refine ⟨written ++ records.map (j.clock, ·), ?_, ?_⟩
  . rw [← List.append_assoc, ← heq]
    rfl
  . rw [List.forall_mem_append, List.forall_mem_map]
    exact ⟨hwritten, hrecords⟩

theorem LoggedSince.write (h : LoggedSince start P j) {record : Record} (hrecord : P record)
    : LoggedSince start P (j.write record) :=
  h.writeAll (List.forall_mem_singleton.mpr hrecord)

theorem LoggedSince.elapse (h : LoggedSince start P j) (millis : Nat)
    : LoggedSince start P (j.elapse millis) :=
  h.congr rfl

end Journal

theorem Agent.Step.dispatchRecord_isClean (step : Step) (attempt duration : Nat)
    (result : Except Cause Json)
    : (step.dispatchRecord attempt duration result).IsClean := by
  unfold dispatchRecord attemptFields
  cases result <;> simp

theorem Agent.Step.span_isClean (step : Step) : step.span.IsClean := by
  unfold span
  cases step.provider <;> simp

theorem Engine.failureWord_isClean (failure : AttemptError)
    : LogText.IsClean (failureWord failure) := by
  cases failure with
  | failed cause => exact (by decide : LogText.IsClean "failed")
  | timedOut limit => exact (by decide : LogText.IsClean "timed_out")

theorem Agent.inputNote_isClean {input : Json} {record : Record} (h : record ∈ inputNote input)
    : record.IsClean := by
  have hkind : LogText.IsClean input.kind := by
    cases input <;> simp only [Json.kind] <;> decide
  unfold inputNote at h
  split at h
  . cases h
  . cases h
  . obtain rfl := List.mem_singleton.mp h
    simp [hkind]

theorem Agent.shadowNotes_isClean {fields : Json.Fields} {b : Bindings} {record : Record}
    (h : record ∈ shadowNotes fields b)
    : record.IsClean := by
  obtain ⟨key, _, rfl⟩ := List.mem_map.mp h
  simp

section LoggedSince

variable {P : Record → Prop} {start : Journal} (hclean : ∀ record, record.IsClean → P record)

include hclean

namespace RetryPolicy

variable {α : Type} (policy : RetryPolicy)

theorem pause_logged (number : Nat) {j : Journal} (h : start.LoggedSince P j)
    : start.LoggedSince P (policy.pause number j) := by
  unfold pause
  dsimp only
  split
  . exact h
  . exact (h.write (hclean _ (by simp))).elapse _

theorem settle_logged (number : Nat) {attempt : Attempt α}
    (hrecords : ∀ record ∈ attempt.records, P record)
    (hfailed : ∀ cause, attempt.result = .error cause → P (policy.failure number cause))
    {j : Journal} (h : start.LoggedSince P j)
    : start.LoggedSince P (policy.settle number attempt j).2 := by
  unfold settle
  split
  . have hended := (h.elapse attempt.delay).writeAll hrecords
    dsimp only
    split
    . exact hended
    . next cause hresult => exact hended.write (hfailed cause hresult)
  . exact (h.elapse policy.timeout).write (hclean _ (by simp [timeoutNote]))

/-- An attempt whose records, and that of whose failure, are of a kind. -/
structure AttemptLogs (start : Journal) (P : Record → Prop)
    (attempt : Nat → Journal → Attempt α × Journal) : Prop where
  journal : ∀ number j, start.LoggedSince P j → start.LoggedSince P (attempt number j).2
  records : ∀ number j, ∀ record ∈ (attempt number j).1.records, P record
  failed : ∀ number j cause, (attempt number j).1.result = .error cause →
    P (policy.failure number cause)

variable {attempt : Nat → Journal → Attempt α × Journal}

theorem run_logged (hattempt : policy.AttemptLogs start P attempt) {j : Journal}
    (h : start.LoggedSince P j)
    : start.LoggedSince P (policy.run attempt j).2 := by
  apply policy.run_invariant
  . exact fun number j h => policy.pause_logged hclean number h
  . intro number j h
    exact policy.settle_logged hclean number (hattempt.records number j)
      (hattempt.failed number j) (hattempt.journal number j h)
  . exact h

end RetryPolicy

namespace Engine

open Agent

def LogsFailures (engine : Engine) (P : Record → Prop) (step : Step) : Prop :=
  ∀ backend earlier request cause number secrets,
    engine.registry.resolve step = .ok backend →
    (backend.capability earlier request).result = .error cause →
    P ((engine.policyOf step).failure number (cause.masked secrets))

variable {engine : Engine} {step : Step} {s : RunState}

theorem dispatch_logged (hfailures : engine.LogsFailures P step) {backend : Backend}
    (hresolve : engine.registry.resolve step = .ok backend) (request : Request)
    (secrets : List String)
    : (engine.policyOf step).AttemptLogs start P (dispatch step backend request secrets) := by
  constructor
  . intro number j h
    have hwrite := h.write (hclean (.debug "dispatching" (step.attemptFields number))
      (by simp [Step.attemptFields]))
    exact hwrite.congr rfl
  . intro number j record hrecord
    obtain rfl := List.mem_singleton.mp hrecord
    exact hclean _ (step.dispatchRecord_isClean _ _ _)
  . intro number j cause hresult
    -- the cause is the one that the capability has answered, without the secrets
    let earlier := (j.write (.debug "dispatching" (step.attemptFields number))).earlierCalls
      backend.number
    have hmasked : (dispatch step backend request secrets number j).1.result
        = (backend.capability earlier request).result.mapError (Cause.masked secrets) := rfl
    rw [hresult] at hmasked
    cases hanswer : (backend.capability earlier request).result with
    | ok value =>
      rw [hanswer] at hmasked
      cases hmasked
    | error answered =>
      rw [hanswer] at hmasked
      cases hmasked
      exact hfailures backend earlier request answered number secrets hresolve hanswer

theorem writeOutcome_logged (h : start.LoggedSince P s.journal) {outcome : String}
    (houtcome : LogText.IsClean outcome) (attempts duration : Nat)
    : start.LoggedSince P (s.writeOutcome outcome attempts duration).journal := by
  apply h.writeAll
  intro record hrecord
  apply hclean
  simp only [Step.outcomeRecords, List.mem_cons, List.not_mem_nil, or_false] at hrecord
  obtain rfl | rfl | rfl := hrecord <;> simp [houtcome]

theorem complete_logged (step : Step) (condition : Option Bool) (begun : Nat) (value : Json)
    (attempts : Nat) (h : start.LoggedSince P s.journal)
    : start.LoggedSince P (complete step condition begun value attempts s).journal := by
  unfold complete
  dsimp only
  refine Journal.LoggedSince.write ?_ (hclean _ (by simp [Step.completionRecord]))
  apply writeOutcome_logged hclean
  . cases step.save <;> exact h
  . decide

theorem runOn_logged (hfailures : engine.LogsFailures P step) (condition : Option Bool)
    {backend : Backend} (hresolve : engine.registry.resolve step = .ok backend)
    (h : start.LoggedSince P s.journal)
    : start.LoggedSince P (engine.runOn step condition backend s).2.journal := by
  have hrun := (engine.policyOf step).run_logged hclean (dispatch_logged hclean hfailures hresolve
    (engine.requestOf step s.bindings) s.bindings.secretValues) h
  unfold runOn
  dsimp only
  split
  . apply complete_logged hclean
    exact hrun
  . next failure _ =>
    apply writeOutcome_logged hclean
    . exact hrun
    . exact failureWord_isClean failure

theorem dispatchStep_logged (hfailures : engine.LogsFailures P step) (condition : Option Bool)
    (h : start.LoggedSince P s.journal)
    : start.LoggedSince P (engine.dispatchStep step condition s).2.journal := by
  unfold dispatchStep
  split
  . next backend hresolve => exact runOn_logged hclean hfailures condition hresolve h
  . apply writeOutcome_logged hclean
    . exact h
    . decide

theorem beginStep_logged (step : Step) (h : start.LoggedSince P s.journal)
    : start.LoggedSince P (s.beginStep step).journal := by
  have hspan := h.write (hclean step.span step.span_isClean)
  unfold RunState.beginStep
  cases step.guard with
  | none => exact hspan
  | some guard => exact hspan.write (hclean _ (by simp [Step.guardRecord]))

theorem runStep_logged (hfailures : engine.LogsFailures P step) (h : start.LoggedSince P s.journal)
    : start.LoggedSince P (engine.runStep step s).2.journal := by
  have hbegin := beginStep_logged hclean step h
  cases hadmits : step.admits s.bindings with
  | false =>
    rw [runStep_of_not_admits hadmits]
    apply writeOutcome_logged hclean
    . exact hbegin
    . decide
  | true =>
    rw [runStep_of_admits hadmits]
    exact dispatchStep_logged hclean hfailures _ hbegin

theorem advance_logged (hfailures : engine.LogsFailures P step) (h : start.LoggedSince P s.journal)
    : start.LoggedSince P (engine.advance [] step s).2.journal := by
  have hstep := runStep_logged hclean hfailures h
  unfold advance
  generalize engine.runStep step s = ran at hstep
  obtain ⟨result, s'⟩ := ran
  cases result with
  | ok outcome => exact hstep
  | error error =>
    dsimp only
    split
    . exact hstep.write (hclean _ (by simp))
    . exact hstep

theorem runSteps_logged {steps : List Step} (hfailures : ∀ step ∈ steps, engine.LogsFailures P step)
    (p : Progress) (h : start.LoggedSince P s.journal)
    : start.LoggedSince P (engine.runSteps steps p s).2.2.journal := by
  apply runSteps_invariant (I := fun s => start.LoggedSince P s.journal)
  . exact fun step hstep s h => advance_logged hclean (hfailures step hstep) h
  . exact h

theorem finish_logged (begun stepsRun : Nat) (success : Bool) (h : start.LoggedSince P s.journal)
    : start.LoggedSince P (finish begun stepsRun success s).journal := by
  unfold finish
  dsimp only
  refine Journal.LoggedSince.write ?_ (hclean _ (by simp))
  exact h.write (hclean (.learned "agent_execution" ("steps_run", Record.number stepsRun))
    (by simp))

theorem seed_logged (engine : Engine) {agent : Agent} (input : Json)
    (hunbound : ∀ decl ∈ agent.vars, P (unboundNote decl))
    : ∀ record ∈ (engine.seed agent input).2, P record := by
  intro record hrecord
  unfold seed at hrecord
  split at hrecord
  . cases hrecord
  . rw [List.mem_append, List.mem_append, or_assoc] at hrecord
    obtain hinput | hshadow | hvars := hrecord
    . exact hclean record (inputNote_isClean hinput)
    . exact hclean record (shadowNotes_isClean hshadow)
    . obtain ⟨decl, hdecl, rfl⟩ := bindVariables_notes hvars
      exact hunbound decl hdecl

theorem execute_logged (engine : Engine) {agent : Agent} (input : Json)
    (hunbound : ∀ decl ∈ agent.vars, P (unboundNote decl))
    (hfailures : ∀ step ∈ agent.steps, engine.LogsFailures P step)
    : start.LoggedSince P (engine.execute agent input start).state.journal := by
  have hopened : ∀ bindings,
      start.LoggedSince P (engine.opened agent input bindings start).journal := by
    intro bindings
    have hspan := Journal.LoggedSince.refl.write (j := start) (hclean (executionSpan agent)
      (by simp [executionSpan]))
    exact hspan.writeAll (seed_logged hclean engine input hunbound)
  have hended : ∀ (s : RunState) (success : Bool), start.LoggedSince P s.journal →
      start.LoggedSince P
        (s.write (.learned "agent_execution" ("success", Record.flag success))).journal := by
    intro s success h
    exact h.write (hclean _ (by simp))
  cases hseed : (engine.seed agent input).1 with
  | error error =>
    rw [execute_of_seed_error hseed]
    exact hended _ false (hopened {})
  | ok bindings =>
    rw [execute_of_seed_ok hseed]
    apply hended
    have hrun := runSteps_logged hclean hfailures {} (hopened (bindings.inOrder start.order))
    unfold executeSeeded
    generalize engine.runSteps agent.steps {}
      (engine.opened agent input (bindings.inOrder start.order) start) = ran at hrun
    obtain ⟨_ | error, p, s⟩ := ran
    . exact finish_logged hclean _ _ _ hrun
    . exact finish_logged hclean _ _ _ hrun

end Engine

end LoggedSince

open Agent

/-- A record with a text as it was found. -/
inductive Record.IsRaw (engine : Engine) (agent : Agent) : Record → Prop where
  /-- A variable is left unbound. -/
  | unbound {decl : Variable} (h : decl ∈ agent.vars) : IsRaw engine agent (unboundNote decl)
  /-- An attempt has failed with what the capability has answered, without the secrets. -/
  | failed {step : Step} {backend : Backend} {earlier : Nat} {request : Request} {cause : Cause}
      (hstep : step ∈ agent.steps) (hresolve : engine.registry.resolve step = .ok backend)
      (hanswer : (backend.capability earlier request).result = .error cause) (number : Nat)
      (secrets : List String)
      : IsRaw engine agent ((engine.policyOf step).failure number (cause.masked secrets))

namespace Engine

/-- Whatever an execution logs is free of control characters, or a text as it was found. -/
theorem execute_isClean_or_isRaw (engine : Engine) (agent : Agent) (input : Json) (j : Journal)
    : j.LoggedSince (fun record => record.IsClean ∨ record.IsRaw engine agent)
        (engine.execute agent input j).state.journal := by
  apply execute_logged
  . intro record hclean
    exact .inl hclean
  . intro decl hdecl
    exact .inr (.unbound hdecl)
  . intro step hstep backend earlier request cause number secrets hresolve hanswer
    exact .inr (.failed hstep hresolve hanswer number secrets)

def forging : Engine where
  registry := ({} : Registry).register "http" none fun _ _ =>
    { result := .error (.root "down\nINFO all is well") }
  secrets := fun _ => none

def twoLines : Agent where
  id := "forger"
  version := "1.0"
  vars := [{ name := "first\nsecond" }]
  steps := [{ id := "call", kind := "http" }]

theorem not_isClean_of_forging
    : let records := (forging.execute twoLines .null {}).state.journal.records
      (0, .debug "optional variable left unbound" [("name", "first\nsecond")]) ∈ records ∧
      (0, .warn "attempt failed" [("attempt", "1"), ("max_attempts", "1"),
        ("error", "down\nINFO all is well")]) ∈ records ∧
      ¬ Journal.LoggedSince {} Record.IsClean
        (forging.execute twoLines .null {}).state.journal := by
  have hname : (forging.execute twoLines .null {}).state.journal.records[1]?
      = some (0, .debug "optional variable left unbound" [("name", "first\nsecond")]) := rfl
  have herror : (forging.execute twoLines .null {}).state.journal.records[5]?
      = some (0, .warn "attempt failed" [("attempt", "1"), ("max_attempts", "1"),
        ("error", "down\nINFO all is well")]) := rfl
  refine ⟨List.mem_of_getElem? hname, List.mem_of_getElem? herror, ?_⟩
  intro ⟨written, hrecords, hclean⟩
  rw [hrecords] at hname
  exact absurd (hclean _ (List.mem_of_getElem? hname)) (by decide)

theorem execute_isClean (engine : Engine) (agent : Agent) (input : Json) (j : Journal)
    (hnames : ∀ decl ∈ agent.vars, LogText.IsClean decl.name)
    (herrors : engine.registry.All fun capability => ∀ earlier request cause,
      (capability earlier request).result = .error cause → LogText.IsClean cause.text)
    : j.LoggedSince Record.IsClean (engine.execute agent input j).state.journal := by
  apply execute_logged
  . exact fun record h => h
  . intro decl hdecl
    simp [unboundNote, hnames decl hdecl]
  . intro step hstep backend earlier request cause number secrets hresolve hanswer
    have hcause := herrors.of_resolve hresolve earlier request cause hanswer
    simp [RetryPolicy.failure, Cause.masked, Cause.text, mask_isClean secrets hcause]

end Engine

end Runbook
