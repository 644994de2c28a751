import Mathlib.Data.List.Forall2
import Runbook.Proofs.Run.Account

/-!
This module contains the comparison of two executions of an agent whose tables go through the names
of their secrets in different orders. All they can differ in is how much of overlapping secrets is
left in the texts of errors.
-/

namespace Runbook

namespace Happening

variable {B : Bindings → Bindings → Prop} {told₁ told₂ : List Happening}

theorem eq_of_forall₂_toldAlike (h : List.Forall₂ (ToldAlike B) told₁ told₂)
    (hB : ∀ b₁ b₂, B b₁ b₂ → Masking.mask b₁.secretValues = Masking.mask b₂.secretValues)
    : told₁ = told₂ := by
  rw [← List.forall₂_eq_eq_eq]
  exact h.imp fun _ _ htold => htold.eq_of_mask_eq hB

theorem exists_of_forall₂_finished {success : Bool} {duration : Nat}
    (h : List.Forall₂ (ToldAlike B) (told₁ ++ [.finished success duration]) told₂)
    : ∃ told,
        List.Forall₂ (ToldAlike B) told₁ told ∧
        told₂ = told ++ [.finished success duration] := by
  induction told₁ generalizing told₂ with
  | nil =>
    cases h with
    | cons hlast hnil =>
      cases hnil
      cases hlast
      exact ⟨[], .nil, rfl⟩
  | cons what told₁ ih =>
    cases h with
    | cons hwhat hrest =>
      obtain ⟨told, htold, rfl⟩ := ih hrest
      exact ⟨_ :: told, .cons hwhat htold, rfl⟩

end Happening

namespace Trace

/-- What has happened, without times. -/
def history (trace : Trace) : List Happening :=
  trace.events.map (·.what.timeless)

/-- Two traces that tell alike and that have the same room for more. -/
structure SameHistory (B : Bindings → Bindings → Prop) (t₁ t₂ : Trace) : Prop where
  history : List.Forall₂ (Happening.ToldAlike B) t₁.history t₂.history
  capacity : t₁.capacity = t₂.capacity
  dropped : t₁.dropped = t₂.dropped

theorem push_history (trace : Trace) (event : Event)
    : (trace.push event).history
        =
      (if trace.capacity ≤ trace.history.length then trace.history.drop 1 else trace.history) ++
        [event.what.timeless] := by
  have hlength : trace.history.length = trace.events.length := by simp [history]
  unfold push
  rw [hlength]
  split <;> simp [history]

theorem push_dropped (trace : Trace) (event : Event)
    : (trace.push event).dropped
        =
      if trace.capacity ≤ trace.history.length then trace.dropped + 1 else trace.dropped := by
  have hlength : trace.history.length = trace.events.length := by simp [history]
  unfold push
  rw [hlength]
  split <;> rfl

variable {B : Bindings → Bindings → Prop} {t₁ t₂ : Trace}

theorem SameHistory.push (h : SameHistory B t₁ t₂) (e₁ e₂ : Event)
    : ∃ told₁ told₂,
        List.Forall₂ (Happening.ToldAlike B) told₁ told₂ ∧
        (t₁.push e₁).history = told₁ ++ [e₁.what.timeless] ∧
        (t₂.push e₂).history = told₂ ++ [e₂.what.timeless] := by
  refine ⟨_, _, ?_, push_history t₁ e₁, push_history t₂ e₂⟩
  rw [h.capacity, h.history.length_eq]
  split
  . exact List.forall₂_drop 1 h.history
  . exact h.history

theorem SameHistory.push_eq (h : SameHistory Eq t₁ t₂) (e₁ e₂ : Event)
    : ∃ told,
        (t₁.push e₁).history = told ++ [e₁.what.timeless] ∧
        (t₂.push e₂).history = told ++ [e₂.what.timeless] := by
  obtain ⟨told₁, told₂, htold, h₁, h₂⟩ := h.push e₁ e₂
  have heq := Happening.eq_of_forall₂_toldAlike htold (by rintro b _ rfl; rfl)
  exact ⟨told₁, h₁, heq ▸ h₂⟩

theorem timeless_sameHistory (B : Bindings → Bindings → Prop) : Timeless B (SameHistory B) := by
  intro t₁ t₂ e₁ e₂ h he
  constructor
  . obtain ⟨told₁, told₂, htold, h₁, h₂⟩ := h.push e₁ e₂
    rw [h₁, h₂]
    exact List.rel_append htold (.cons he .nil)
  . rw [push_capacity, push_capacity]
    exact h.capacity
  . rw [push_dropped, push_dropped]
    rw [h.history.length_eq, h.capacity, h.dropped]

end Trace

/-- Bindings that steps can make of others by what they save. -/
structure Bindings.GrownFrom (steps : List Agent.Step) (seed b : Bindings) : Prop where
  secretNames : b.secretNames = seed.secretNames
  get? : ∀ name, (∀ step ∈ steps, step.save ≠ some name) → b.get? name = seed.get? name

/-- Bindings that two runs of the same steps come to, when each has an order of its own. -/
def Bindings.FromSeed (steps : List Agent.Step) (seed : Bindings) (order₁ order₂ : SecretOrder)
    (b₁ b₂ : Bindings) : Prop :=
  ∃ b, GrownFrom steps seed b ∧ b₁ = b.inOrder order₁ ∧ b₂ = b.inOrder order₂

/--
Whether two orders make no difference to what is hidden: they are the same, or the secrets do not
overlap and no step puts anything in the place of one.
-/
def SecretOrder.Immaterial (steps : List Agent.Step) (seed : Bindings)
    (order₁ order₂ : SecretOrder) : Prop :=
  order₁ = order₂ ∨
    Masking.OrderFree seed.secretValues ∧
    ∀ step ∈ steps, ∀ name ∈ seed.secretNames, step.save ≠ some name

namespace Bindings

variable {steps : List Agent.Step} {seed b b₁ b₂ : Bindings} {order₁ order₂ : SecretOrder}

theorem GrownFrom.refl : GrownFrom steps seed seed :=
  ⟨rfl, fun _ _ => rfl⟩

theorem GrownFrom.set (h : GrownFrom steps seed b) {step : Agent.Step} (hstep : step ∈ steps)
    {name : String} (hsave : step.save = some name) (value : Json)
    : GrownFrom steps seed (b.set name value) := by
  refine ⟨h.secretNames, ?_⟩
  intro other hother
  rw [get?_set, if_neg]
  . exact h.get? other hother
  . rintro rfl
    exact hother step hstep hsave

theorem keeps_fromSeed {step : Agent.Step} (hstep : step ∈ steps)
    : Keeps (FromSeed steps seed order₁ order₂) step := by
  constructor
  . rintro _ _ ⟨b, _, rfl, rfl⟩
    exact ⟨rfl, rfl⟩
  . rintro _ _ name value ⟨b, hgrown, rfl, rfl⟩ hsave
    exact ⟨b.set name value, hgrown.set hstep hsave value, rfl, rfl⟩

theorem GrownFrom.secretValues_perm (h : GrownFrom steps seed b)
    (hsaves : ∀ step ∈ steps, ∀ name ∈ seed.secretNames, step.save ≠ some name)
    (order : SecretOrder)
    : (b.inOrder order).secretValues.Perm seed.secretValues := by
  have heq : seed.secretValues = (b.inOrder seed.order).secretValues := by
    refine secretValues_eq rfl h.secretNames.symm fun name hname => ?_
    exact (h.get? name fun step hstep => hsaves step hstep name hname).symm
  rw [heq]
  exact (b.inOrder_secretValues_perm order).trans (b.inOrder_secretValues_perm seed.order).symm

theorem FromSeed.mask_eq (h : FromSeed steps seed order₁ order₂ b₁ b₂)
    (himmaterial : SecretOrder.Immaterial steps seed order₁ order₂)
    : Masking.mask b₁.secretValues = Masking.mask b₂.secretValues := by
  obtain ⟨b, hgrown, rfl, rfl⟩ := h
  obtain rfl | ⟨hfree, hsaves⟩ := himmaterial
  . rfl
  . rw [hfree.mask_eq (hgrown.secretValues_perm hsaves order₁)]
    rw [hfree.mask_eq (hgrown.secretValues_perm hsaves order₂)]

end Bindings

namespace Engine

variable {engine : Engine} {agent : Agent} {input : Json} {bindings : Bindings}

/-- Two executions of the same agent that are alike in all but the order of their secrets. -/
structure ExecutesAlike (B : Bindings → Bindings → Prop) (c₁ c₂ : List Call)
    (e₁ e₂ : Execution) : Prop where
  result : EndsAlike e₁.state.bindings e₂.state.bindings e₁.result e₂.result
  state : RunState.Alike B (Trace.SameHistory B) c₁ c₂ e₁.state e₂.state

theorem execute_alike (hseed : (engine.seed agent input).1 = .ok bindings) (j₁ j₂ : Journal)
    (even : Call.EquallyMany j₁.calls j₂.calls)
    : ExecutesAlike (Bindings.FromSeed agent.steps bindings j₁.order j₂.order) j₁.calls j₂.calls
        (engine.execute agent input j₁) (engine.execute agent input j₂) := by
  let B := Bindings.FromSeed agent.steps bindings j₁.order j₂.order
  let s₁ := engine.opened agent input (bindings.inOrder j₁.order) j₁
  let s₂ := engine.opened agent input (bindings.inOrder j₂.order) j₂
  have hopened : RunState.Alike B (Trace.SameHistory B) j₁.calls j₂.calls s₁ s₂ := by
    refine ⟨⟨bindings, .refl, rfl, rfl⟩, ⟨[], ?_, ?_⟩, ?_⟩
    . rw [List.append_nil]
      rfl
    . rw [List.append_nil]
      rfl
    . exact Trace.timeless_sameHistory B _ _ _ _ ⟨.nil, rfl, rfl⟩ (.same _)
  have htogether := runSteps_alike even (Trace.timeless_sameHistory B) engine
    (fun step hstep => Bindings.keeps_fromSeed hstep) {} hopened
  have hrun₁ := execute_isRunFrom hseed j₁
  have hrun₂ := execute_isRunFrom hseed j₂
  have houtputs : ∀ x₁ x₂ : Progress × RunState,
      (x₁.1 = x₂.1 ∧ RunState.Alike B (Trace.SameHistory B) j₁.calls j₂.calls x₁.2 x₂.2) →
      engine.outputs agent x₁.2.bindings x₁.1.lastSaved
        = engine.outputs agent x₂.2.bindings x₂.1.lastSaved := by
    rintro x₁ x₂ ⟨hprogress, hstate⟩
    obtain ⟨b, _, hb₁, hb₂⟩ := hstate.bindings
    rw [hprogress, hb₁, hb₂]
    rfl
  refine ⟨hrun₁.endsAlike hrun₂ htogether houtputs, ?_⟩
  have hends₁ := hrun₁.endsWith
  have hends₂ := hrun₂.endsWith
  generalize engine.runSteps agent.steps {} s₁ = ran₁ at htogether hends₁
  generalize engine.runSteps agent.steps {} s₂ = ran₂ at htogether hends₂
  obtain ⟨failure₁, p₁, s₁'⟩ := ran₁
  obtain ⟨failure₂, p₂, s₂'⟩ := ran₂
  obtain ⟨hfailure, hprogress, hstate⟩ := htogether
  dsimp only at hfailure hprogress hstate hends₁ hends₂
  obtain ⟨duration₁, time₁, htrace₁⟩ := hends₁.trace
  obtain ⟨duration₂, time₂, htrace₂⟩ := hends₂.trace
  have hnone : failure₁.isNone = failure₂.isNone := by
    cases hfailure <;> rfl
  constructor
  . rw [hends₁.bindings, hends₂.bindings]
    exact hstate.bindings
  . exact hstate.calls.congr hends₁.calls hends₂.calls
  . rw [htrace₁, htrace₂]
    apply Trace.timeless_sameHistory B _ _ _ _ hstate.trace
    rw [hprogress, hnone]
    exact .same _

end Engine

end Runbook
