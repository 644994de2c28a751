import Runbook.Proofs.Agent.Sound
import Runbook.Proofs.Source.Position

/-!
This module contains where the problems stand that are met in reading an agent from its lines and in
checking it as a whole: on lines of its text, as its steps do.
-/

namespace Runbook.Agent

open Source

variable {n : Nat}

@[simp]
theorem errorAt_isWithin_iff (label : Label) (message hint : String)
    : (errorAt label message hint).IsWithin n ↔ 1 ≤ n ∧ label.line ≤ n := by
  simp [errorAt]

@[simp]
theorem warningAt_isWithin_iff (label : Label) (message : String)
    : (warningAt label message).IsWithin n ↔ 1 ≤ n ∧ label.line ≤ n := by
  simp [warningAt]

@[simp]
theorem withGuess_isWithin_iff (d : Diagnostic) (word : String) (known : List String)
    : (withGuess d word known).IsWithin n ↔ d.IsWithin n := by
  unfold withGuess
  split <;> simp

section Sections

variable (hn : 1 ≤ n)

include hn

theorem readRetries_isWithin (id : String) {fields : List Entry}
    (h : ∀ field ∈ fields, EntryWithin n field)
    : (readRetries id fields).IsWithin n := by
  unfold readRetries
  split
  . simp
  . next label node hfield =>
    have hlabel := (h _ (List.mem_of_find?_eq_some hfield)).1
    split <;> simp [hn, hlabel]

theorem readTimeout_isWithin (id : String) {fields : List Entry}
    (h : ∀ field ∈ fields, EntryWithin n field)
    : (readTimeout id fields).IsWithin n := by
  unfold readTimeout
  split
  . simp
  . next label node hfield =>
    have hlabel := (h _ (List.mem_of_find?_eq_some hfield)).1
    split <;> simp [hn, hlabel]

theorem readStep_isWithin {site : StepSite} (hsite : site.line ≤ n) {fields : List Entry}
    (h : ∀ field ∈ fields, EntryWithin n field)
    : (readStep site fields).IsWithin n := by
  unfold readStep
  split
  . simp [hn, hsite]
  . split
    . simp [hn, hsite]
    . simp [readRetries_isWithin hn _ h, readTimeout_isWithin hn _ h]

theorem readFlatStep_isWithin {entry : Entry} (h : EntryWithin n entry)
    : (readFlatStep entry).IsWithin n := by
  obtain ⟨label, node⟩ := entry
  obtain ⟨hlabel, hnode⟩ := h
  unfold readFlatStep
  dsimp only
  split
  . exact readStep_isWithin hn hlabel ((Node.isWithin_map_iff _).mp hnode)
  . exact readStep_isWithin hn hlabel (List.forall_mem_nil _)
  . simp [hn, hlabel]

theorem readListStep_isWithin {item : Item} (h : ItemWithin n item)
    : (readListStep item).IsWithin n := by
  obtain ⟨place, node⟩ := item
  obtain ⟨hplace, hnode⟩ := h
  unfold readListStep
  dsimp only
  split
  . exact readStep_isWithin hn hplace ((Node.isWithin_map_iff _).mp hnode)
  . simp [hn, hplace]

theorem readSteps_isWithin {entry : Entry} (h : EntryWithin n entry)
    : (readSteps entry).IsWithin n := by
  obtain ⟨label, node⟩ := entry
  obtain ⟨hlabel, hnode⟩ := h
  unfold readSteps
  dsimp only
  split
  . simpa using fun item hitem => readListStep_isWithin hn (hnode.of_list item hitem)
  . rw [Node.isWithin_map_iff] at hnode
    simpa using fun entry hentry => readFlatStep_isWithin hn (hnode entry hentry)
  . simp
  . simp [hn, hlabel]

theorem readText_isWithin {entry : Entry} (h : EntryWithin n entry)
    : (readText entry).IsWithin n := by
  obtain ⟨label, node⟩ := entry
  unfold readText
  dsimp only
  split <;> simp [hn, h.1]

theorem readTrigger_isWithin {entry : Entry} (h : EntryWithin n entry)
    : (readTrigger entry).IsWithin n := by
  obtain ⟨label, node⟩ := entry
  unfold readTrigger
  dsimp only
  split <;> simp [hn, h.1]

theorem readSecrets_isWithin {entry : Entry} (h : EntryWithin n entry)
    : (readSecrets entry).IsWithin n := by
  have hitem {item : Item} (hplace : item.1.line ≤ n) : (readSecretItem item).IsWithin n := by
    obtain ⟨place, node⟩ := item
    unfold readSecretItem
    dsimp only
    split <;> simp [hn, hplace]
  obtain ⟨label, node⟩ := entry
  obtain ⟨hlabel, hnode⟩ := h
  unfold readSecrets
  dsimp only
  split
  . simpa using fun item hmem => hitem (hnode.of_list item hmem).1
  . simp
  . simp
  . simp [hn, hlabel]

theorem readProperty_isWithin (spec : Variable) {entry : Entry} (h : EntryWithin n entry)
    : (readProperty spec entry).IsWithin n := by
  obtain ⟨label, node⟩ := entry
  unfold readProperty
  dsimp only
  split
  . split <;> simp [hn, h.1]
  . split <;> simp [hn, h.1]
  . split <;> simp [hn, h.1]
  . simp
  . simp
  . simp [hn, h.1]

theorem readVariables_isWithin {entry : Entry} (h : EntryWithin n entry)
    : (readVariables entry).IsWithin n := by
  have hvariable {entry : Entry} (h : EntryWithin n entry) : (readVariable entry).IsWithin n := by
    obtain ⟨label, node⟩ := entry
    unfold readVariable
    dsimp only
    split
    . simp
    . split <;> simp
    . simp
    . next properties =>
      have hproperties := (Node.isWithin_map_iff properties).mp h.2
      exact Noted.isWithin_foldlM
        (fun spec property hmem => readProperty_isWithin hn spec (hproperties property hmem)) _
    . simp
  obtain ⟨label, node⟩ := entry
  obtain ⟨hlabel, hnode⟩ := h
  unfold readVariables
  dsimp only
  split
  . rw [Node.isWithin_map_iff] at hnode
    simpa using fun entry hmem => hvariable (hnode entry hmem)
  . simp
  . simp [hn, hlabel]

theorem readOutputs_isWithin {entry : Entry} (h : EntryWithin n entry)
    : (readOutputs entry).IsWithin n := by
  have houtput {entry : Entry} (h : EntryWithin n entry) : (readOutput entry).IsWithin n := by
    obtain ⟨label, node⟩ := entry
    unfold readOutput
    dsimp only
    split <;> simp [hn, h.1]
  obtain ⟨label, node⟩ := entry
  obtain ⟨hlabel, hnode⟩ := h
  unfold readOutputs
  dsimp only
  split
  . rw [Node.isWithin_map_iff] at hnode
    simpa using fun entry hmem => houtput (hnode entry hmem)
  . simp
  . simp [hn, hlabel]

theorem readSection_isWithin (draft : Draft) {entry : Entry} (h : EntryWithin n entry)
    : (draft.readSection entry).IsWithin n := by
  unfold Draft.readSection
  dsimp only
  split
  . simp [readText_isWithin hn h]
  . simp [readTrigger_isWithin hn h]
  . simp [readSecrets_isWithin hn h]
  . simp [readVariables_isWithin hn h]
  . simp [readSteps_isWithin hn h]
  . simp [readOutputs_isWithin hn h]
  . simp [hn, h.1]

theorem addEntry_isWithin (draft : Draft) {entry : Entry} (h : EntryWithin n entry)
    : (draft.addEntry entry).IsWithin n := by
  have hrepeat : (Noted.noteAll (draft.repeatNotes entry.1)).IsWithin n := by
    unfold Noted.noteAll Draft.repeatNotes
    split <;> simp [hn, h.1]
  unfold Draft.addEntry
  split
  . simp [readFlatStep_isWithin hn h]
  . simp [hrepeat, readSection_isWithin hn _ h]

end Sections

/-- All steps of an agent stand on the first `n` lines. -/
def StepsWithin (n : Nat) (agent : Agent) : Prop :=
  ∀ step ∈ agent.steps, step.line ≤ n

theorem readSteps_stepsWithin {entry : Entry} (h : EntryWithin n entry)
    : ∀ step ∈ (readSteps entry).value, step.line ≤ n := by
  obtain ⟨hlabel, hnode⟩ := h
  intro step hstep
  have hplace := (readSteps_wellFormed entry).2.subset (List.mem_map_of_mem hstep)
  rw [List.mem_cons] at hplace
  cases hplace with
  | inl heq => exact heq ▸ hlabel
  | inr hmem => exact hnode.places _ hmem

theorem readSection_stepsWithin {draft : Draft} (h : draft.agent.StepsWithin n) {entry : Entry}
    (hentry : EntryWithin n entry)
    : (draft.readSection entry).value.agent.StepsWithin n := by
  unfold Draft.readSection
  dsimp only
  split
  . exact h
  . exact h
  . exact h
  . exact h
  . exact List.forall_mem_append.mpr ⟨h, readSteps_stepsWithin hentry⟩
  . exact h
  . exact h

theorem addEntry_stepsWithin {draft : Draft} (h : draft.agent.StepsWithin n) {entry : Entry}
    (hentry : EntryWithin n entry)
    : (draft.addEntry entry).value.agent.StepsWithin n := by
  unfold Draft.addEntry
  split
  . refine List.forall_mem_append.mpr ⟨h, ?_⟩
    intro step hstep
    rw [Option.mem_toList] at hstep
    rw [(readFlatStep_wellFormed hstep).2]
    exact hentry.1
  . have hseen (seen : List String) : ({ draft with seen } : Draft).agent.StepsWithin n := h
    exact readSection_stepsWithin (hseen _) hentry

theorem foldlM_stepsWithin {draft : Draft} (h : draft.agent.StepsWithin n) {entries : List Entry}
    (hentries : ∀ entry ∈ entries, EntryWithin n entry)
    : (entries.foldlM Draft.addEntry draft).value.agent.StepsWithin n := by
  induction entries generalizing draft with
  | nil => exact h
  | cons entry rest ih =>
    obtain ⟨hentry, hrest⟩ := List.forall_mem_cons.mp hentries
    rw [List.foldlM_cons, Noted.bind_value]
    exact ih (addEntry_stepsWithin h hentry) hrest

section Checks

variable (hn : 1 ≤ n)

include hn

theorem repeatedIds_isWithin {steps : List Step} (h : ∀ step ∈ steps, step.line ≤ n)
    (seen : List (String × Nat))
    : ∀ d ∈ repeatedIds.go seen steps, d.IsWithin n := by
  induction steps generalizing seen with
  | nil => exact List.forall_mem_nil _
  | cons step rest ih =>
    obtain ⟨hstep, hrest⟩ := List.forall_mem_cons.mp h
    unfold repeatedIds.go
    split
    . rw [List.forall_mem_cons]
      exact ⟨by simp [hn, hstep], ih hrest seen⟩
    . exact ih hrest _

theorem unreadSaves_isWithin (outputs : List Output) {steps : List Step}
    (h : ∀ step ∈ steps, step.line ≤ n)
    : ∀ d ∈ unreadSaves outputs steps, d.IsWithin n := by
  induction steps with
  | nil => exact List.forall_mem_nil _
  | cons step rest ih =>
    obtain ⟨hstep, hrest⟩ := List.forall_mem_cons.mp h
    unfold unreadSaves
    rw [List.forall_mem_append]
    refine ⟨?_, ih hrest⟩
    split
    . split
      . exact List.forall_mem_nil _
      . simp [hn, hstep]
    . exact List.forall_mem_nil _

theorem check_isWithin {agent : Agent} (h : agent.StepsWithin n)
    : ∀ d ∈ agent.check, d.IsWithin n := by
  have hnoSteps : ∀ d ∈ noSteps agent, d.IsWithin n := by
    unfold noSteps
    split <;> simp [hn]
  unfold check
  rw [List.forall_mem_append, List.forall_mem_append]
  exact ⟨⟨repeatedIds_isWithin hn h [], hnoSteps⟩, unreadSaves_isWithin hn agent.outputs h⟩

end Checks

section Outline

theorem outline_body_sublist (header : Option Header) (lines : List Line)
    : (outline header lines).value.body.Sublist lines := by
  induction lines generalizing header with
  | nil => exact .slnil
  | cons line rest ih =>
    unfold outline
    split
    . split
      . exact (ih _).cons line
      . exact (ih _).cons line
    . exact List.nil_sublist _
    . exact (ih _).cons line
    . exact (ih _).cons_cons line

variable (hn : 1 ≤ n)

include hn

theorem outline_isWithin {header : Option Header} (hheader : ∀ first ∈ header, first.line ≤ n)
    {lines : List Line} (h : ∀ line ∈ lines, line.number ≤ n)
    : (outline header lines).IsWithin n ∧
      ∀ first ∈ (outline header lines).value.header, first.line ≤ n := by
  induction lines generalizing header with
  | nil => exact ⟨Noted.isWithin_pure _, hheader⟩
  | cons line rest ih =>
    obtain ⟨hline, hrest⟩ := List.forall_mem_cons.mp h
    have hkept := ih hheader hrest
    unfold outline
    split
    . split
      . simpa [hn, hline] using hkept
      . next args _ _ =>
        have hread : (readHeader line args).IsWithin n := by
          unfold readHeader
          dsimp only
          split
          . simp [hn, hline]
          . split <;> simp [hn, hline]
        have hfirst : ∀ first ∈ some (readHeader line args).value, first.line ≤ n := by
          intro first hsome
          cases hsome
          exact hline
        obtain ⟨hnotes, hmore⟩ := ih hfirst hrest
        simpa [hread, hnotes] using hmore
    . refine ⟨?_, hheader⟩
      unfold afterEnd
      split
      . simp
      . next below _ => simp [hn, (List.forall_mem_cons.mp hrest).1]
    . simpa [hn, hline] using hkept
    . simpa using hkept

theorem headerNotes_isWithin (header : Option Header) {lines : List Line}
    (h : ∀ line ∈ lines, line.number ≤ n)
    : ∀ d ∈ headerNotes header lines, d.IsWithin n := by
  unfold headerNotes
  split
  . exact List.forall_mem_nil _
  . cases lines with
    | nil => simp [hn]
    | cons line rest => simp [hn, h line List.mem_cons_self]

theorem triggerNotes_isWithin {header : Option Header} (hheader : ∀ first ∈ header, first.line ≤ n)
    (draft : Draft)
    : ∀ d ∈ triggerNotes header draft, d.IsWithin n := by
  unfold triggerNotes
  dsimp only
  split
  . exact List.forall_mem_nil _
  . split
    . next first => simp [hn, hheader first rfl]
    . split <;> simp [hn]

end Outline

theorem ofLines_isWithin (hn : 1 ≤ n) {lines : List Line} (hnodup : (numbers lines).Nodup)
    (h : ∀ line ∈ lines, line.number ≤ n)
    : (ofLines lines).IsWithin n ∧ ∀ agent ∈ (ofLines lines).value, agent.StepsWithin n := by
  have hnone : ∀ first ∈ (none : Option Header), first.line ≤ n :=
    fun first hfirst => nomatch hfirst
  have hempty : ({} : Draft).agent.StepsWithin n := List.forall_mem_nil _
  obtain ⟨hparts, hheader⟩ := outline_isWithin hn hnone h
  have hbody := outline_body_sublist none lines
  have htree := buildTree_isWithin hn fun line hline => h line (hbody.subset hline)
  have hkept := (buildTree_covers (hnodup.sublist (hbody.map Line.number))).sublist
  have hplaces : ∀ k ∈ entryLines (buildTree (outline none lines).value.body).value, k ≤ n := by
    intro k hk
    obtain ⟨line, hline, rfl⟩ := List.mem_map.mp (hkept.subset hk)
    exact h line (hbody.subset hline)
  rw [forall_entryLines_iff] at hplaces
  have hdraft := Noted.isWithin_foldlM
    (fun draft entry hentry => addEntry_isWithin hn draft (hplaces entry hentry)) {}
  have hsteps := foldlM_stepsWithin hempty hplaces
  rw [ofLines_eq rfl rfl rfl]
  constructor
  . simp only [Noted.isWithin_append_iff, Noted.isWithin_notes_iff]
    exact ⟨hparts, headerNotes_isWithin hn _ h, htree, hdraft, triggerNotes_isWithin hn hheader _⟩
  . intro agent hagent
    unfold completed at hagent
    split at hagent
    . cases hagent
      exact hsteps
    . cases hagent

end Runbook.Agent
