import Runbook.Proofs.Bindings
import Runbook.Run.Seed

/-!
This module contains which names a run starts with as secrets: the declared ones. Neither the input
nor the variables make a secret of another name; but a variable may be left unbound, and the log is
told of it.
-/

namespace Runbook

namespace Agent

@[simp]
theorem bindInput_secretNames (agent : Agent) (fields : Json.Fields) (b : Bindings)
    : (agent.bindInput fields b).secretNames = b.secretNames := by
  unfold bindInput
  induction fields generalizing b with
  | nil => rfl
  | cons field rest ih =>
    rw [List.foldl_cons, ih]
    dsimp only
    split <;> rfl

end Agent

namespace Engine

open Agent

theorem bindVariables_secretNames {engine : Engine} {input : Json.Fields} {vars : List Variable}
    {b b' : Bindings} (h : (engine.bindVariables input vars b).1 = .ok b')
    : b'.secretNames = b.secretNames := by
  induction vars generalizing b with
  | nil =>
    cases h
    rfl
  | cons decl rest ih =>
    unfold bindVariables at h
    split at h
    . exact ih h
    . split at h
      . next value hvalue => exact (ih h).trans (b.set_secretNames decl.name value)
      . split at h
        . cases h
        . exact ih h

theorem bindVariables_notes {engine : Engine} {input : Json.Fields} {vars : List Variable}
    {b : Bindings} {record : Record} (h : record ∈ (engine.bindVariables input vars b).2)
    : ∃ decl ∈ vars, record = unboundNote decl := by
  induction vars generalizing b with
  | nil => cases h
  | cons decl rest ih =>
    have hrest : ∀ {b : Bindings}, record ∈ (engine.bindVariables input rest b).2 →
        ∃ other ∈ decl :: rest, record = unboundNote other := by
      intro b hmem
      obtain ⟨other, hother, heq⟩ := ih hmem
      exact ⟨other, List.mem_cons_of_mem _ hother, heq⟩
    unfold bindVariables at h
    split at h
    . exact hrest h
    . split at h
      . exact hrest h
      . split at h
        . cases h
        . obtain rfl | hmem := List.mem_cons.mp h
          . exact ⟨decl, List.mem_cons_self, rfl⟩
          . exact hrest hmem

end Engine

end Runbook
