import Runbook.Proofs.Run.Effect

/-!
This module contains the calls that a run adds to the journal: however often a step is tried, it
calls for itself only, and earlier calls stay as they are.
-/

namespace Runbook

def Journal.Adds (P : Call → Prop) (j k : Journal) : Prop :=
  ∃ made, k.calls = j.calls ++ made ∧ ∀ call ∈ made, P call

namespace Journal

variable {P : Call → Prop} {j k l : Journal}

theorem Adds.of_eq (h : k.calls = j.calls) : Adds P j k :=
  ⟨[], by rw [h, List.append_nil], List.forall_mem_nil _⟩

theorem Adds.trans (h₁ : Adds P j k) (h₂ : Adds P k l) : Adds P j l := by
  obtain ⟨first, hfirst, hfirstP⟩ := h₁
  obtain ⟨second, hsecond, hsecondP⟩ := h₂
  refine ⟨first ++ second, ?_, ?_⟩
  . rw [hsecond, hfirst, List.append_assoc]
  . rw [List.forall_mem_append]
    exact ⟨hfirstP, hsecondP⟩

theorem Adds.mono {Q : Call → Prop} (h : Adds P j k) (hPQ : ∀ call, P call → Q call)
    : Adds Q j k := by
  obtain ⟨made, hcalls, hmade⟩ := h
  exact ⟨made, hcalls, fun call hcall => hPQ call (hmade call hcall)⟩

end Journal

def Call.IsFor (step : Agent.Step) (call : Call) : Prop :=
  call.request.step = step.id

namespace Engine

open Agent

theorem runStep_adds (engine : Engine) (step : Step) (s : RunState)
    : Journal.Adds (Call.IsFor step) s.journal (engine.runStep step s).2.journal := by
  obtain ⟨made, hcalls, _, hmade, _⟩ := engine.runStep_calls step s
  refine ⟨made, hcalls, ?_⟩
  intro call hcall
  obtain ⟨backend, _, rfl⟩ := hmade call hcall
  rfl

theorem advance_adds (engine : Engine) (fields : List LogField) (step : Step) (s : RunState)
    : Journal.Adds (Call.IsFor step) s.journal (engine.advance fields step s).2.journal := by
  have hcalls := (engine.advance_snd fields step s).2.2
  exact (engine.runStep_adds step s).trans (.of_eq hcalls)

end Engine

end Runbook
