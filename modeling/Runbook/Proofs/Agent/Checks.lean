import Runbook.Agent.Checks
import Runbook.Proofs.Errors

/-!
This module contains what the checks on a whole agent find wrong: two steps with one id, and nothing
else. They also warn of results that are saved and that neither a later step nor an output reads.
-/

namespace Runbook.Agent

theorem lookup_append_singleton (seen : List (String × Nat)) (id other : String) (line : Nat)
    : (seen ++ [(id, line)]).lookup other = none ↔ seen.lookup other = none ∧ other ≠ id := by
  have hlast : [(id, line)].lookup other = none ↔ other ≠ id := by
    rw [List.lookup_eq_none_iff, List.forall_mem_singleton, bne_iff_ne]
  rw [List.lookup_append, Option.or_eq_none_iff, hlast]

theorem repeatedIds_go (seen : List (String × Nat)) (steps : List Step)
    : errorsAmong (repeatedIds.go seen steps) = [] ↔
      (steps.map Step.id).Nodup ∧ ∀ step ∈ steps, seen.lookup step.id = none := by
  -- the ids that have been seen grow with each new one, and a repeated one is an error at once
  induction steps generalizing seen with
  | nil => simp [repeatedIds.go]
  | cons step rest ih =>
    unfold repeatedIds.go
    rw [List.map_cons, List.nodup_cons, List.forall_mem_cons]
    cases hseen : seen.lookup step.id with
    | some first => simp
    | none =>
      dsimp only
      rw [ih]
      simp only [lookup_append_singleton, List.mem_map]
      constructor
      . rintro ⟨hnodup, hrest⟩
        refine ⟨⟨?_, hnodup⟩, trivial, ?_⟩
        . rintro ⟨other, hmem, hid⟩
          exact (hrest other hmem).2 hid
        . intro other hmem
          exact (hrest other hmem).1
      . rintro ⟨⟨hnew, hnodup⟩, _, hrest⟩
        refine ⟨hnodup, ?_⟩
        intro other hmem
        refine ⟨hrest other hmem, ?_⟩
        intro hid
        exact hnew ⟨other, hmem, hid⟩

theorem errorsAmong_unreadSaves (outputs : List Output) (steps : List Step)
    : errorsAmong (unreadSaves outputs steps) = [] := by
  induction steps with
  | nil => rfl
  | cons step rest ih =>
    unfold unreadSaves
    rw [errorsAmong_append, ih, List.append_nil]
    split
    . split <;> simp
    . rfl

theorem errorsAmong_check (agent : Agent)
    : errorsAmong agent.check = [] ↔ (agent.steps.map Step.id).Nodup := by
  have hnoSteps : errorsAmong (noSteps agent) = [] := by
    unfold noSteps
    split <;> simp
  have hrepeated := repeatedIds_go [] agent.steps
  simp only [List.lookup_nil, implies_true, and_true] at hrepeated
  unfold check
  simp only [errorsAmong_append, hnoSteps, errorsAmong_unreadSaves, List.append_nil]
  exact hrepeated

section UnreadSaves

variable {outputs : List Output} {step : Step} {later : List Step} {warning : Diagnostic}

theorem unreadSaves_cons (outputs : List Output) (step : Step) (later : List Step)
    : unreadSaves outputs (step :: later) = unreadSaves outputs later ∨
      ∃ warning,
        unreadSaves outputs (step :: later) = warning :: unreadSaves outputs later := by
  rw [unreadSaves]
  split
  . split
    . exact .inl rfl
    . exact .inr ⟨_, rfl⟩
  . exact .inl rfl

theorem mem_unreadSaves_iff {steps : List Step}
    : warning ∈ unreadSaves outputs steps
        ↔
      ∃ before step later, steps = before ++ step :: later ∧
        unreadSaves outputs (step :: later) = warning :: unreadSaves outputs later := by
  constructor
  . intro hmem
    induction steps with
    | nil => cases hmem
    | cons step later ih =>
      have hlater : warning ∈ unreadSaves outputs later →
          ∃ before other rest, step :: later = before ++ other :: rest ∧
            unreadSaves outputs (other :: rest) = warning :: unreadSaves outputs rest := by
        intro hmem
        obtain ⟨before, other, rest, rfl, hwarning⟩ := ih hmem
        exact ⟨step :: before, other, rest, rfl, hwarning⟩
      obtain hcons | ⟨first, hcons⟩ := unreadSaves_cons outputs step later
      . rw [hcons] at hmem
        exact hlater hmem
      . rw [hcons, List.mem_cons] at hmem
        obtain rfl | hmem := hmem
        . exact ⟨[], step, later, rfl, hcons⟩
        . exact hlater hmem
  . rintro ⟨before, step, later, rfl, hwarning⟩
    induction before with
    | nil =>
      rw [List.nil_append, hwarning]
      exact List.mem_cons_self
    | cons first rest ih =>
      rw [List.cons_append, unreadSaves]
      exact List.mem_append_right _ ih

end UnreadSaves

/-- A warning on the step between two rows of steps: it saves a name that nothing reads. -/
structure WarnsOf (agent : Agent) (warning : Diagnostic) (before : List Step) (step : Step)
    (later : List Step) : Prop where
  steps : agent.steps = before ++ step :: later
  unread : unreadSaves agent.outputs (step :: later) = warning :: unreadSaves agent.outputs later

theorem repeatedIds_severity {seen : List (String × Nat)} {steps : List Step} {d : Diagnostic}
    (h : d ∈ repeatedIds.go seen steps)
    : d.severity = .error := by
  induction steps generalizing seen with
  | nil => cases h
  | cons step rest ih =>
    unfold repeatedIds.go at h
    split at h
    . obtain rfl | hrest := List.mem_cons.mp h
      . rfl
      . exact ih hrest
    . exact ih h

theorem mem_check_iff {agent : Agent} (hsteps : agent.steps ≠ []) {warning : Diagnostic}
    (hwarning : warning.severity = .warning)
    : warning ∈ agent.check ↔ ∃ before step later, agent.WarnsOf warning before step later := by
  have hrepeated : warning ∉ repeatedIds agent.steps := by
    intro hmem
    cases hwarning.symm.trans (repeatedIds_severity hmem)
  have hnone : noSteps agent = [] := by
    unfold noSteps
    rw [if_neg (by simpa using hsteps)]
  have hcheck : warning ∈ agent.check ↔ warning ∈ unreadSaves agent.outputs agent.steps := by
    unfold check
    simp [hrepeated, hnone]
  rw [hcheck, mem_unreadSaves_iff]
  constructor
  . intro ⟨before, step, later, heq, hunread⟩
    exact ⟨before, step, later, heq, hunread⟩
  . intro ⟨before, step, later, heq, hunread⟩
    exact ⟨before, step, later, heq, hunread⟩

end Runbook.Agent
