import Mathlib.Data.List.Basic
import Runbook.Proofs.Run.Compare
import Runbook.Proofs.Run.Step

/-!
This module contains the comparison of runs that begin with the same bindings and with capabilities
that were called equally often. Such runs make the same calls and end in the same way; the time and
the log have no part in it. The order in which each table of bindings goes through its secrets shows
in the texts of errors only.
-/

namespace Runbook

/-- Since they held the calls `c₁` and `c₂`, the same calls were added to two journals. -/
def Journal.Alike (c₁ c₂ : List Call) (j₁ j₂ : Journal) : Prop :=
  ∃ made, j₁.calls = c₁ ++ made ∧ j₂.calls = c₂ ++ made

/-- Every capability was called equally often. -/
def Call.EquallyMany (c₁ c₂ : List Call) : Prop :=
  ∀ backend, c₁.countP (·.backend = backend) = c₂.countP (·.backend = backend)

namespace Journal

variable {c₁ c₂ : List Call} {j₁ j₂ : Journal}

theorem Alike.congr {k₁ k₂ : Journal} (h : Alike c₁ c₂ j₁ j₂) (h₁ : k₁.calls = j₁.calls)
    (h₂ : k₂.calls = j₂.calls)
    : Alike c₁ c₂ k₁ k₂ := by
  unfold Alike
  rw [h₁, h₂]
  exact h

end Journal

theorem Backend.answersAlike {c₁ c₂ : List Call} (even : Call.EquallyMany c₁ c₂)
    (backend : Backend) (request : Request)
    : backend.AnswersAlike (fun d₁ d₂ => ∃ made, d₁ = c₁ ++ made ∧ d₂ = c₂ ++ made)
        request request := by
  rintro d₁ d₂ ⟨made, rfl, rfl⟩
  constructor
  . rw [List.countP_append, List.countP_append, even backend.number]
  . exact ⟨made ++ [⟨backend.number, request⟩], List.append_assoc .., List.append_assoc ..⟩

/-- Two tables with the same names, values, and secrets, each of which has an order of its own. -/
structure Bindings.Reordered (b₁ b₂ : Bindings) : Prop where
  values : b₁.values = b₂.values
  secretNames : b₁.secretNames = b₂.secretNames

/-- A comparison of bindings that goes on to hold behind a step. -/
structure Bindings.Keeps (B : Bindings → Bindings → Prop) (step : Agent.Step) : Prop where
  reordered : ∀ b₁ b₂, B b₁ b₂ → b₁.Reordered b₂
  set : ∀ b₁ b₂ name value, B b₁ b₂ → step.save = some name →
    B (b₁.set name value) (b₂.set name value)

namespace Bindings

variable {b b₁ b₂ : Bindings}

theorem Reordered.refl (b : Bindings) : b.Reordered b :=
  ⟨rfl, rfl⟩

theorem Reordered.set (h : b₁.Reordered b₂) (name : String) (value : Json)
    : (b₁.set name value).Reordered (b₂.set name value) := by
  refine ⟨?_, h.secretNames⟩
  unfold Bindings.set
  rw [h.values]

theorem Reordered.eq_inOrder (h : b₁.Reordered b₂) : b₁ = b₂.inOrder b₁.order := by
  obtain ⟨values₁, secretNames₁, order₁⟩ := b₁
  obtain ⟨rfl, rfl⟩ := h
  rfl

theorem secretValues_eq (horder : b₁.order = b₂.order) (hnames : b₁.secretNames = b₂.secretNames)
    (hvalues : ∀ name ∈ b₁.secretNames, b₁.get? name = b₂.get? name)
    : b₁.secretValues = b₂.secretValues := by
  unfold secretValues
  rw [← horder, ← hnames]
  apply List.filterMap_congr
  intro name hname
  rw [hvalues name ((b₁.order.perm _).mem_iff.mp hname)]

theorem inOrder_secretValues_perm (b : Bindings) (order : SecretOrder)
    : (b.inOrder order).secretValues.Perm b.secretValues := by
  unfold secretValues
  apply List.Perm.filterMap
  exact (order.perm _).trans (b.order.perm _).symm

theorem Reordered.secretValues_perm (h : b₁.Reordered b₂)
    : b₁.secretValues.Perm b₂.secretValues := by
  rw [h.eq_inOrder]
  exact b₂.inOrder_secretValues_perm b₁.order

theorem keeps_reordered (step : Agent.Step) : Keeps Reordered step := by
  constructor
  . exact fun _ _ h => h
  . exact fun _ _ name value h _ => h.set name value

theorem keeps_eq (step : Agent.Step) : Keeps Eq step := by
  constructor
  . rintro b _ rfl
    exact .refl b
  . rintro b _ name value rfl _
    rfl

theorem bindResult_congr {B : Bindings → Bindings → Prop} {step : Agent.Step}
    (hset : ∀ name value, step.save = some name → B (b₁.set name value) (b₂.set name value))
    (h : B b₁ b₂) {E : ExecutionError → ExecutionError → Prop}
    {r₁ r₂ : Except ExecutionError StepOutcome} (hresult : SameOutcome E r₁ r₂)
    : B (step.bindResult b₁ r₁) (step.bindResult b₂ r₂) := by
  unfold Agent.Step.bindResult
  cases hresult with
  | error _ => exact h
  | ok outcome =>
    cases outcome with
    | skipped => exact h
    | completed value attempts =>
      dsimp only
      split
      . next name hsave => exact hset name value hsave
      . exact h

end Bindings

/--
Two accounts of the same: of the same happening, or of the same failure of a step, in which related
bindings have hidden their secrets.
-/
inductive Happening.ToldAlike (B : Bindings → Bindings → Prop) : Happening → Happening → Prop where
  | same (what : Happening) : ToldAlike B what what
  | failed {b₁ b₂ : Bindings} (h : B b₁ b₂) (step : String) (attempts : Nat)
      {e₁ e₂ : ExecutionError}
      (herror : e₁.SameUnmasked b₁.secretValues b₂.secretValues e₂)
      : ToldAlike B (.stepFailed step attempts 0 (b₁.maskText e₁.message))
          (.stepFailed step attempts 0 (b₂.maskText e₂.message))

theorem Happening.ToldAlike.eq_of_mask_eq {B : Bindings → Bindings → Prop} {w₁ w₂ : Happening}
    (h : ToldAlike B w₁ w₂)
    (hB : ∀ b₁ b₂, B b₁ b₂ → Masking.mask b₁.secretValues = Masking.mask b₂.secretValues)
    : w₁ = w₂ := by
  cases h with
  | same => rfl
  | failed h step attempts herror =>
    have hmask := hB _ _ h
    unfold Bindings.maskText
    rw [herror.eq_of_mask_eq hmask, hmask]

/--
Two run states with related bindings, and with the same calls since they held `c₁` and `c₂`. What
their traces have in common is up to the comparison, too.
-/
structure RunState.Alike (B : Bindings → Bindings → Prop) (T : Trace → Trace → Prop)
    (c₁ c₂ : List Call) (s₁ s₂ : RunState) : Prop where
  bindings : B s₁.bindings s₂.bindings
  calls : Journal.Alike c₁ c₂ s₁.journal s₂.journal
  trace : T s₁.trace s₂.trace

def Trace.Timeless (B : Bindings → Bindings → Prop) (T : Trace → Trace → Prop) : Prop :=
  ∀ t₁ t₂ (e₁ e₂ : Event), T t₁ t₂ → Happening.ToldAlike B e₁.what.timeless e₂.what.timeless →
    T (t₁.push e₁) (t₂.push e₂)

def Trace.Any (_ _ : Trace) : Prop :=
  True

theorem Trace.timeless_any (B : Bindings → Bindings → Prop) : Timeless B Any := by
  intro t₁ t₂ e₁ e₂ _ _
  trivial

namespace Engine

open Agent

variable {B : Bindings → Bindings → Prop} {T : Trace → Trace → Prop} {c₁ c₂ : List Call}
  {s₁ s₂ : RunState} {step : Step}

theorem meetsAlike_of_reordered (even : Call.EquallyMany c₁ c₂) (engine : Engine) (step : Step)
    {b₁ b₂ : Bindings} (h : b₁.Reordered b₂)
    : engine.MeetsAlike (fun d₁ d₂ => ∃ made, d₁ = c₁ ++ made ∧ d₂ = c₂ ++ made) step b₁ b₂ := by
  constructor
  . intro guard _
    rw [h.values]
  . intro backend _
    unfold requestOf
    rw [h.values]
    exact backend.answersAlike even _

theorem happening_toldAlike (step : Step) {b₁ b₂ : Bindings} (h : B b₁ b₂)
    {r₁ r₂ : Except ExecutionError StepOutcome} (hresult : EndsAlike b₁ b₂ r₁ r₂)
    : Happening.ToldAlike B (step.happening b₁ r₁) (step.happening b₂ r₂) := by
  unfold Step.happening
  cases hresult with
  | ok outcome => cases outcome <;> exact .same _
  | error herror =>
    dsimp only
    rw [herror.attempts_eq]
    exact .failed h _ _ herror

theorem runStep_alike (even : Call.EquallyMany c₁ c₂) (hB : Bindings.Keeps B step)
    (hT : Trace.Timeless B T) (engine : Engine) (h : RunState.Alike B T c₁ c₂ s₁ s₂)
    : EndsAlike s₁.bindings s₂.bindings (engine.runStep step s₁).1 (engine.runStep step s₂).1 ∧
      RunState.Alike B T c₁ c₂ (engine.runStep step s₁).2 (engine.runStep step s₂).2 := by
  have hmeets := engine.meetsAlike_of_reordered even step (hB.reordered _ _ h.bindings)
  -- given the result, the bindings and the trace are known without another look at the step
  obtain ⟨hresult, hcalls⟩ := runStep_related hmeets h.calls
  obtain ⟨e₁, htrace₁, he₁⟩ := engine.runStep_trace step s₁
  obtain ⟨e₂, htrace₂, he₂⟩ := engine.runStep_trace step s₂
  refine ⟨hresult, ?_, hcalls, ?_⟩
  . rw [runStep_bindings, runStep_bindings]
    have hset := fun name value => hB.set s₁.bindings s₂.bindings name value h.bindings
    exact Bindings.bindResult_congr hset h.bindings hresult
  . rw [htrace₁, htrace₂]
    apply hT
    . exact h.trace
    . rw [he₁, he₂]
      exact happening_toldAlike step h.bindings hresult

theorem goesOnAfter_of_sameUnmasked (engine : Engine) {secrets₁ secrets₂ : List String}
    {e₁ e₂ : ExecutionError} (h : e₁.SameUnmasked secrets₁ secrets₂ e₂)
    : engine.goesOnAfter e₁ = engine.goesOnAfter e₂ := by
  unfold goesOnAfter
  rw [h.isConfiguration_eq]

theorem verdict_alike (engine : Engine) {b₁ b₂ : Bindings}
    {r₁ r₂ : Except ExecutionError StepOutcome} (h : EndsAlike b₁ b₂ r₁ r₂)
    : EndsAlike b₁ b₂ (engine.verdict r₁) (engine.verdict r₂) := by
  unfold verdict
  cases h with
  | ok outcome => exact .ok _
  | error herror =>
    dsimp only
    rw [engine.goesOnAfter_of_sameUnmasked herror]
    split
    . exact .ok none
    . exact .error herror

theorem advance_alike (even : Call.EquallyMany c₁ c₂) (hB : Bindings.Keeps B step)
    (hT : Trace.Timeless B T) (engine : Engine) (f₁ f₂ : List LogField)
    (h : RunState.Alike B T c₁ c₂ s₁ s₂)
    : EndsAlike s₁.bindings s₂.bindings (engine.advance f₁ step s₁).1
        (engine.advance f₂ step s₂).1 ∧
      RunState.Alike B T c₁ c₂ (engine.advance f₁ step s₁).2 (engine.advance f₂ step s₂).2 := by
  obtain ⟨hresult, hstate⟩ := runStep_alike even hB hT engine h
  obtain ⟨hbindings₁, htrace₁, hcalls₁⟩ := engine.advance_snd f₁ step s₁
  obtain ⟨hbindings₂, htrace₂, hcalls₂⟩ := engine.advance_snd f₂ step s₂
  refine ⟨?_, ?_, hstate.calls.congr hcalls₁ hcalls₂, ?_⟩
  . rw [advance_fst, advance_fst]
    exact engine.verdict_alike hresult
  . rw [hbindings₁, hbindings₂]
    exact hstate.bindings
  . rw [htrace₁, htrace₂]
    exact hstate.trace

/--
Two runs of steps that end with the same error, or both with none, and that have something in common
in the end.
-/
structure EndTogether (A : Progress × RunState → Progress × RunState → Prop)
    (ran₁ ran₂ : Option ExecutionError × Progress × RunState) : Prop where
  failure : Option.Rel (ExecutionError.SameUnmasked ran₁.2.2.bindings.secretValues
    ran₂.2.2.bindings.secretValues) ran₁.1 ran₂.1
  common : A ran₁.2 ran₂.2

section EndTogether

variable {A A' : Progress × RunState → Progress × RunState → Prop} {p₁ p₂ : Progress}

theorem EndTogether.cons {engine : Engine} {step₁ step₂ : Step} {rest₁ rest₂ : List Step}
    (hresult : EndsAlike s₁.bindings s₂.bindings (engine.advance [] step₁ s₁).1
      (engine.advance [] step₂ s₂).1)
    (hended : A (p₁, (engine.advance [] step₁ s₁).2) (p₂, (engine.advance [] step₂ s₂).2))
    (hrest : ∀ outcome, EndTogether A
      (engine.runSteps rest₁ (p₁.add step₁ outcome) (engine.advance [] step₁ s₁).2)
      (engine.runSteps rest₂ (p₂.add step₂ outcome) (engine.advance [] step₂ s₂).2))
    : EndTogether A (engine.runSteps (step₁ :: rest₁) p₁ s₁)
        (engine.runSteps (step₂ :: rest₂) p₂ s₂) := by
  rw [runSteps, runSteps]
  cases hadvance₁ : engine.advance [] step₁ s₁ with
  | mk result₁ s₁' =>
  cases hadvance₂ : engine.advance [] step₂ s₂ with
  | mk result₂ s₂' =>
  rw [hadvance₁, hadvance₂] at hresult hended hrest
  dsimp only at hresult hended hrest
  cases hresult with
  | ok outcome => exact hrest outcome
  | error herror =>
    refine ⟨.some ?_, hended⟩
    -- an error changes no bindings, so that it hides what the bindings in the end would hide
    rw [advance_bindings_of_no_outcome hadvance₁ (by simp)]
    rw [advance_bindings_of_no_outcome hadvance₂ (by simp)]
    exact herror

theorem EndTogether.append {engine : Engine} {before₁ before₂ later₁ later₂ : List Step}
    (hbefore : EndTogether A (engine.runSteps before₁ p₁ s₁) (engine.runSteps before₂ p₂ s₂))
    (hended : ∀ x₁ x₂, A x₁ x₂ → A' x₁ x₂)
    (hlater : ∀ p₁ p₂ s₁ s₂, A (p₁, s₁) (p₂, s₂) →
      EndTogether A' (engine.runSteps later₁ p₁ s₁) (engine.runSteps later₂ p₂ s₂))
    : EndTogether A' (engine.runSteps (before₁ ++ later₁) p₁ s₁)
        (engine.runSteps (before₂ ++ later₂) p₂ s₂) := by
  rw [runSteps_append, runSteps_append]
  generalize engine.runSteps before₁ p₁ s₁ = ran₁ at hbefore
  generalize engine.runSteps before₂ p₂ s₂ = ran₂ at hbefore
  obtain ⟨failure₁, p₁, s₁⟩ := ran₁
  obtain ⟨failure₂, p₂, s₂⟩ := ran₂
  obtain ⟨hfailure, hcommon⟩ := hbefore
  dsimp only at hfailure hcommon
  cases hfailure with
  | none => exact hlater p₁ p₂ s₁ s₂ hcommon
  | some herror => exact ⟨.some herror, hended _ _ hcommon⟩

end EndTogether

theorem runSteps_alike (even : Call.EquallyMany c₁ c₂) (hT : Trace.Timeless B T) (engine : Engine)
    {steps : List Step} (hB : ∀ step ∈ steps, Bindings.Keeps B step) (p : Progress)
    (h : RunState.Alike B T c₁ c₂ s₁ s₂)
    : EndTogether (fun x₁ x₂ => x₁.1 = x₂.1 ∧ RunState.Alike B T c₁ c₂ x₁.2 x₂.2)
        (engine.runSteps steps p s₁) (engine.runSteps steps p s₂) := by
  induction steps generalizing p s₁ s₂ with
  | nil => exact ⟨.none, rfl, h⟩
  | cons step rest ih =>
    rw [List.forall_mem_cons] at hB
    obtain ⟨hresult, hstate⟩ := advance_alike even hB.1 hT engine [] [] h
    exact .cons hresult ⟨rfl, hstate⟩ fun outcome => ih hB.2 (p.add step outcome) hstate

theorem advance_same (even : Call.EquallyMany c₁ c₂) (hT : Trace.Timeless Eq T) (engine : Engine)
    (f₁ f₂ : List LogField) (step : Step) (h : RunState.Alike Eq T c₁ c₂ s₁ s₂)
    : (engine.advance f₁ step s₁).1 = (engine.advance f₂ step s₂).1 ∧
      RunState.Alike Eq T c₁ c₂ (engine.advance f₁ step s₁).2 (engine.advance f₂ step s₂).2 := by
  obtain ⟨hresult, hstate⟩ := advance_alike even (Bindings.keeps_eq step) hT engine f₁ f₂ h
  rw [h.bindings] at hresult
  exact ⟨hresult.eq fun _ _ herror => herror.eq_of_mask_eq rfl, hstate⟩

end Engine

end Runbook
