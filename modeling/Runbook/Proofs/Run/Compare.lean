import Runbook.Proofs.Masking.Order
import Runbook.Proofs.Retry
import Runbook.Proofs.Run.Step

/-!
This module contains the comparison of two runs of one step. What the capabilities answer decides
how a step ends, and the time and the log have no part in it; so a relation between the calls made
before is carried through the attempts, as long as related calls are answered in the same way. The
error of the step is then the same one, but each run hides its own secrets in it.
-/

namespace Runbook

/-- All registered capabilities are of a kind. -/
def Registry.All (registry : Registry) (P : Capability → Prop) : Prop :=
  ∀ entry ∈ registry.entries, P entry.2.capability

namespace Registry

variable {registry : Registry} {P : Capability → Prop} {backend : Backend}

theorem all_empty : All {} P :=
  List.forall_mem_nil _

theorem All.register (h : registry.All P) {capability : Capability} (hP : P capability)
    (kind : String) (provider : Option String)
    : (registry.register kind provider capability).All P := by
  unfold All Registry.register
  rw [List.forall_mem_cons]
  exact ⟨hP, fun entry hentry => h entry (List.mem_filter.mp hentry).1⟩

theorem All.of_find? (h : registry.All P) {key : Capability.Key}
    (hfind : registry.find? key = some backend)
    : P backend.capability := by
  obtain ⟨before, after, hentries, _⟩ := List.lookup_eq_some_iff.mp hfind
  apply h (key, backend)
  rw [hentries]
  exact List.mem_append_right before List.mem_cons_self

theorem All.of_resolve (h : registry.All P) {step : Agent.Step}
    (hresolve : registry.resolve step = .ok backend)
    : P backend.capability := by
  unfold resolve get? at hresolve
  split at hresolve
  . next found hget =>
    cases hresolve
    rw [Option.or_eq_some_iff] at hget
    obtain hfind | ⟨_, hfind⟩ := hget
    . exact h.of_find? hfind
    . exact h.of_find? hfind
  . cases hresolve

end Registry

abbrev Call.Relation := List Call → List Call → Prop

/--
Two requests that a capability answers in the same way after related calls, and that go on to be
related once they are made.
-/
def Backend.AnswersAlike (backend : Backend) (R : Call.Relation) (r₁ r₂ : Request) : Prop :=
  ∀ c₁ c₂, R c₁ c₂ →
    backend.capability (c₁.countP (·.backend = backend.number)) r₁
      = backend.capability (c₂.countP (·.backend = backend.number)) r₂ ∧
    R (c₁ ++ [⟨backend.number, r₁⟩]) (c₂ ++ [⟨backend.number, r₂⟩])

/-- The same value, or two errors that are related. -/
inductive SameOutcome {ε α : Type} (E : ε → ε → Prop) : Except ε α → Except ε α → Prop where
  | ok (value : α) : SameOutcome E (.ok value) (.ok value)
  | error {e₁ e₂ : ε} (h : E e₁ e₂) : SameOutcome E (.error e₁) (.error e₂)

section SameOutcome

variable {ε α : Type} {E F : ε → ε → Prop} {r₁ r₂ : Except ε α}

theorem SameOutcome.mono (h : SameOutcome E r₁ r₂) (hEF : ∀ e₁ e₂, E e₁ e₂ → F e₁ e₂)
    : SameOutcome F r₁ r₂ := by
  cases h with
  | ok value => exact .ok value
  | error h => exact .error (hEF _ _ h)

theorem SameOutcome.eq (h : SameOutcome E r₁ r₂) (hE : ∀ e₁ e₂, E e₁ e₂ → e₁ = e₂)
    : r₁ = r₂ := by
  cases h with
  | ok value => rfl
  | error h => rw [hE _ _ h]

theorem SameOutcome.eq_ok {value : α} (h : SameOutcome E (.ok value) r₂) : r₂ = .ok value := by
  cases h
  rfl

theorem SameOutcome.toBool_eq (h : SameOutcome E r₁ r₂) : r₁.toBool = r₂.toBool := by
  cases h <;> rfl

end SameOutcome

/-- Two causes that are the same one, with the secrets of each list hidden. -/
def Cause.SameUnmasked (secrets₁ secrets₂ : List String) (c₁ c₂ : Cause) : Prop :=
  ∃ cause : Cause, c₁ = cause.masked secrets₁ ∧ c₂ = cause.masked secrets₂

/--
Two errors that are the same one, with the secrets of each list hidden in what a capability tells of
its failure. That text is masked twice: when the attempt fails, and when the step does.
-/
inductive ExecutionError.SameUnmasked (secrets₁ secrets₂ : List String)
    : ExecutionError → ExecutionError → Prop where
  | same (error : ExecutionError) : SameUnmasked secrets₁ secrets₂ error error
  | failed (step : String) (attempts : Nat) (cause : String)
      : SameUnmasked secrets₁ secrets₂
          (.stepFailed step attempts (Masking.mask secrets₁ (Masking.mask secrets₁ cause)))
          (.stepFailed step attempts (Masking.mask secrets₂ (Masking.mask secrets₂ cause)))

namespace ExecutionError

variable {secrets₁ secrets₂ : List String} {e₁ e₂ : ExecutionError}

theorem SameUnmasked.attempts_eq (h : SameUnmasked secrets₁ secrets₂ e₁ e₂)
    : e₁.attempts = e₂.attempts := by
  cases h <;> rfl

theorem SameUnmasked.isConfiguration_eq (h : SameUnmasked secrets₁ secrets₂ e₁ e₂)
    : e₁.isConfiguration = e₂.isConfiguration := by
  cases h <;> rfl

theorem SameUnmasked.eq_of_mask_eq (h : SameUnmasked secrets₁ secrets₂ e₁ e₂)
    (hmask : Masking.mask secrets₁ = Masking.mask secrets₂)
    : e₁ = e₂ := by
  cases h with
  | same error => rfl
  | failed step attempts cause => rw [hmask]

theorem SameUnmasked.eq_of_perm (h : SameUnmasked secrets₁ secrets₂ e₁ e₂)
    (hperm : secrets₁.Perm secrets₂)
    (hfree : secrets₁ = secrets₂ ∨ Masking.OrderFree secrets₂)
    : e₁ = e₂ := by
  apply h.eq_of_mask_eq
  obtain rfl | hfree := hfree
  . rfl
  . exact hfree.mask_eq hperm

end ExecutionError

/-- Two failures of attempts for the same reason, as far as the causes are related. -/
inductive AttemptError.Alike (C : Cause → Cause → Prop) : AttemptError → AttemptError → Prop where
  | timedOut (limit : Nat) : Alike C (.timedOut limit) (.timedOut limit)
  | failed {c₁ c₂ : Cause} (h : C c₁ c₂) : Alike C (.failed c₁) (.failed c₂)

/-- Two attempts that take equally long and end in the same way. -/
structure Attempt.Alike {α : Type} (C : Cause → Cause → Prop) (a₁ a₂ : Attempt α) : Prop where
  delay : a₁.delay = a₂.delay
  result : SameOutcome C a₁.result a₂.result

/-- Two pieces of work that were tried equally often and end in the same way. -/
structure RetryOutcome.Alike {α : Type} (C : Cause → Cause → Prop) (o₁ o₂ : RetryOutcome α)
    : Prop where
  result : SameOutcome (AttemptError.Alike C) o₁.result o₂.result
  attempts : o₁.attempts = o₂.attempts

namespace RetryPolicy

variable {α : Type} (policy : RetryPolicy)

variable {R : Call.Relation} {C : Cause → Cause → Prop}
  {attempt₁ attempt₂ : Nat → Journal → Attempt α × Journal}

theorem settle_alike {a₁ a₂ : Attempt α} (h : a₁.Alike C a₂) (number : Nat) (j₁ j₂ : Journal)
    : SameOutcome (AttemptError.Alike C) (policy.settle number a₁ j₁).1
        (policy.settle number a₂ j₂).1 := by
  obtain ⟨hdelay, hresult⟩ := h
  unfold settle
  rw [hdelay]
  split
  . generalize a₁.result = result₁ at hresult
    generalize a₂.result = result₂ at hresult
    cases hresult with
    | ok value => exact .ok value
    | error h => exact .error (.failed h)
  . exact .error (.timedOut _)

theorem run.go_related
    (hattempt : ∀ number j₁ j₂, R j₁.calls j₂.calls →
      (attempt₁ number j₁).1.Alike C (attempt₂ number j₂).1 ∧
      R (attempt₁ number j₁).2.calls (attempt₂ number j₂).2.calls)
    (left number : Nat) {last₁ last₂ : AttemptError} (hlast : AttemptError.Alike C last₁ last₂)
    (j₁ j₂ : Journal) (h : R j₁.calls j₂.calls)
    : (run.go policy attempt₁ left number last₁ j₁).1.Alike C
        (run.go policy attempt₂ left number last₂ j₂).1 ∧
      R (run.go policy attempt₁ left number last₁ j₁).2.calls
        (run.go policy attempt₂ left number last₂ j₂).2.calls := by
  induction left generalizing number last₁ last₂ j₁ j₂ with
  | zero => exact ⟨⟨.error hlast, rfl⟩, h⟩
  | succ left ih =>
    -- pauses differ in time and log only, so that the attempts find related calls
    have hpause : R (policy.pause number j₁).calls (policy.pause number j₂).calls := by
      rw [pause_calls, pause_calls]
      exact h
    obtain ⟨hmade, hcalls⟩ := hattempt number _ _ hpause
    unfold run.go
    dsimp only
    generalize attempt₁ number (policy.pause number j₁) = made₁ at hmade hcalls
    generalize attempt₂ number (policy.pause number j₂) = made₂ at hmade hcalls
    obtain ⟨a₁, k₁⟩ := made₁
    obtain ⟨a₂, k₂⟩ := made₂
    dsimp only at hmade hcalls ⊢
    have hresult := policy.settle_alike hmade number k₁ k₂
    rw [← policy.settle_calls number a₁ k₁, ← policy.settle_calls number a₂ k₂] at hcalls
    generalize policy.settle number a₁ k₁ = settled₁ at hresult hcalls
    generalize policy.settle number a₂ k₂ = settled₂ at hresult hcalls
    obtain ⟨result₁, k₁⟩ := settled₁
    obtain ⟨result₂, k₂⟩ := settled₂
    dsimp only at hresult hcalls
    cases hresult with
    | ok value => exact ⟨⟨.ok value, rfl⟩, hcalls⟩
    | error herror => exact ih _ herror _ _ hcalls

theorem run_related
    (hattempt : ∀ number j₁ j₂, R j₁.calls j₂.calls →
      (attempt₁ number j₁).1.Alike C (attempt₂ number j₂).1 ∧
      R (attempt₁ number j₁).2.calls (attempt₂ number j₂).2.calls)
    (j₁ j₂ : Journal) (h : R j₁.calls j₂.calls)
    : (policy.run attempt₁ j₁).1.Alike C (policy.run attempt₂ j₂).1 ∧
      R (policy.run attempt₁ j₁).2.calls (policy.run attempt₂ j₂).2.calls := by
  unfold run
  apply run.go_related
  . exact hattempt
  . exact .timedOut _
  . exact h

end RetryPolicy

namespace Engine

open Agent

variable {R : Call.Relation} {s₁ s₂ : RunState}

theorem dispatch_related {backend : Backend} {r₁ r₂ : Request}
    (hanswers : backend.AnswersAlike R r₁ r₂) (step : Step) (secrets₁ secrets₂ : List String)
    (number : Nat) (j₁ j₂ : Journal) (h : R j₁.calls j₂.calls)
    : (dispatch step backend r₁ secrets₁ number j₁).1.Alike (Cause.SameUnmasked secrets₁ secrets₂)
        (dispatch step backend r₂ secrets₂ number j₂).1 ∧
      R (dispatch step backend r₁ secrets₁ number j₁).2.calls
        (dispatch step backend r₂ secrets₂ number j₂).2.calls := by
  obtain ⟨hanswer, hcalls⟩ := hanswers j₁.calls j₂.calls h
  let dispatching := Record.debug "dispatching" (step.attemptFields number)
  have hinvoke : ((j₁.write dispatching).invoke backend r₁).1
      = ((j₂.write dispatching).invoke backend r₂).1 := hanswer
  refine ⟨⟨congrArg Answer.delay hinvoke, ?_⟩, hcalls⟩
  unfold dispatch
  dsimp only
  rw [hinvoke]
  cases ((j₂.write dispatching).invoke backend r₂).1.result with
  | ok value => exact .ok value
  | error cause => exact .error ⟨cause, rfl, rfl⟩

/--
Two states in which a step meets the same: the same decision of its guard, and requests that are
answered alike.
-/
structure MeetsAlike (engine : Engine) (R : Call.Relation) (step : Step) (b₁ b₂ : Bindings)
    : Prop where
  guard : ∀ guard, step.guard = some guard →
    Guard.eval b₁.values guard = Guard.eval b₂.values guard
  answers : ∀ backend, engine.registry.resolve step = .ok backend →
    backend.AnswersAlike R (engine.requestOf step b₁) (engine.requestOf step b₂)

/-- Two results of a step that are the same one, the secrets of each of two bindings hidden. -/
abbrev EndsAlike {α : Type} (b₁ b₂ : Bindings)
    : Except ExecutionError α → Except ExecutionError α → Prop :=
  SameOutcome (ExecutionError.SameUnmasked b₁.secretValues b₂.secretValues)

@[simp]
theorem complete_calls (step : Step) (condition : Option Bool) (start : Nat) (value : Json)
    (attempts : Nat) (s : RunState)
    : (complete step condition start value attempts s).journal.calls = s.journal.calls := by
  unfold complete
  cases step.save <;> rfl

theorem stepError_sameUnmasked (step : Step) (b₁ b₂ : Bindings) (attempts : Nat)
    {f₁ f₂ : AttemptError}
    (h : AttemptError.Alike (Cause.SameUnmasked b₁.secretValues b₂.secretValues) f₁ f₂)
    : ExecutionError.SameUnmasked b₁.secretValues b₂.secretValues (stepError step b₁ attempts f₁)
        (stepError step b₂ attempts f₂) := by
  cases h with
  | timedOut limit => exact .same _
  | failed h =>
    obtain ⟨cause, rfl, rfl⟩ := h
    exact .failed step.id attempts cause.text

theorem runOn_related (engine : Engine) (step : Step) (condition : Option Bool) (backend : Backend)
    (hanswers : backend.AnswersAlike R (engine.requestOf step s₁.bindings)
      (engine.requestOf step s₂.bindings))
    (h : R s₁.journal.calls s₂.journal.calls)
    : EndsAlike s₁.bindings s₂.bindings (engine.runOn step condition backend s₁).1
        (engine.runOn step condition backend s₂).1 ∧
      R (engine.runOn step condition backend s₁).2.journal.calls
        (engine.runOn step condition backend s₂).2.journal.calls := by
  obtain ⟨⟨hresult, hattempts⟩, hcalls⟩ := (engine.policyOf step).run_related
    (dispatch_related hanswers step s₁.bindings.secretValues s₂.bindings.secretValues)
    s₁.journal s₂.journal h
  unfold runOn
  dsimp only
  generalize (engine.policyOf step).run (dispatch step backend (engine.requestOf step s₁.bindings)
    s₁.bindings.secretValues) s₁.journal = ran₁ at hresult hattempts hcalls
  generalize (engine.policyOf step).run (dispatch step backend (engine.requestOf step s₂.bindings)
    s₂.bindings.secretValues) s₂.journal = ran₂ at hresult hattempts hcalls
  obtain ⟨⟨result₁, attempts⟩, k₁⟩ := ran₁
  obtain ⟨⟨result₂, _⟩, k₂⟩ := ran₂
  dsimp only at hresult hattempts hcalls
  subst hattempts
  cases hresult with
  | ok value =>
    refine ⟨.ok _, ?_⟩
    rw [complete_calls, complete_calls]
    exact hcalls
  | error herror => exact ⟨.error (stepError_sameUnmasked step _ _ attempts herror), hcalls⟩

theorem dispatchStep_related {engine : Engine} {step : Step}
    (hmeets : engine.MeetsAlike R step s₁.bindings s₂.bindings) (condition : Option Bool)
    (h : R s₁.journal.calls s₂.journal.calls)
    : EndsAlike s₁.bindings s₂.bindings (engine.dispatchStep step condition s₁).1
        (engine.dispatchStep step condition s₂).1 ∧
      R (engine.dispatchStep step condition s₁).2.journal.calls
        (engine.dispatchStep step condition s₂).2.journal.calls := by
  unfold dispatchStep
  split
  . next backend hbackend =>
    have hanswers := hmeets.answers backend hbackend
    exact engine.runOn_related step condition backend hanswers h
  . exact ⟨.error (.same _), h⟩

theorem MeetsAlike.admits_eq {engine : Engine} {step : Step} {b₁ b₂ : Bindings}
    (h : engine.MeetsAlike R step b₁ b₂)
    : step.admits b₁ = step.admits b₂ := by
  unfold Step.admits
  cases hguard : step.guard with
  | none => rfl
  | some guard => exact h.guard guard hguard

theorem runStep_related {engine : Engine} {step : Step}
    (hmeets : engine.MeetsAlike R step s₁.bindings s₂.bindings)
    (h : R s₁.journal.calls s₂.journal.calls)
    : EndsAlike s₁.bindings s₂.bindings (engine.runStep step s₁).1 (engine.runStep step s₂).1 ∧
      R (engine.runStep step s₁).2.journal.calls (engine.runStep step s₂).2.journal.calls := by
  have hadmits := hmeets.admits_eq
  rw [← s₁.beginStep_calls step, ← s₂.beginStep_calls step] at h
  cases hadmits₁ : step.admits s₁.bindings with
  | false =>
    rw [runStep_of_not_admits hadmits₁, runStep_of_not_admits (hadmits.symm.trans hadmits₁)]
    exact ⟨.ok _, h⟩
  | true =>
    rw [runStep_of_admits hadmits₁, runStep_of_admits (hadmits.symm.trans hadmits₁)]
    rw [← s₁.beginStep_bindings step, ← s₂.beginStep_bindings step] at hmeets ⊢
    exact dispatchStep_related hmeets _ h

end Engine

end Runbook
