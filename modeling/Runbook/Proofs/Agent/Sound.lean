import Runbook.Proofs.Agent.Checks
import Runbook.Proofs.Agent.Parsed
import Runbook.Proofs.Source.Numbering
import Runbook.Proofs.Source.Order

/-!
This module contains what holds of every agent that is read without an error: its header and its
trigger say something, its steps can be told apart and stand in the order of their lines, and no
field of a step is out of its range.
-/

namespace Runbook.Agent

open Source Text

def HasText (text : String) : Prop :=
  ∃ c ∈ text.toList, isBlank c = false

theorem notBlank_iff {text : String} : notBlank text ↔ HasText text := by
  unfold notBlank allBlank HasText
  simp

/-- A step whose fields are in their ranges. -/
structure Step.WellFormed (step : Step) : Prop where
  id : HasText step.id
  kind : HasText step.kind
  timeout : ∀ n ∈ step.timeout, 0 < n
  save : ∀ name ∈ step.save, HasText name

/-- An agent that can be executed. -/
structure WellFormed (agent : Agent) : Prop where
  id : agent.id ≠ ""
  version : agent.version ≠ ""
  trigger : agent.trigger.spec.isSome ∨ agent.trigger.fields ≠ []
  secrets : ∀ secret ∈ agent.secrets, ':' ∈ secret.source.toList
  steps : ∀ step ∈ agent.steps, step.WellFormed
  ids : (agent.steps.map Step.id).Nodup
  index : ∀ i step, agent.steps[i]? = some step → agent.stepIndex? step.id = some i
  lines : (agent.steps.map Step.line).Pairwise (· < ·)

theorem stepIndex?_of_nodup {agent : Agent} (h : (agent.steps.map Step.id).Nodup) {i : Nat}
    {step : Step} (hstep : agent.steps[i]? = some step)
    : agent.stepIndex? step.id = some i := by
  obtain ⟨hi, hget⟩ := List.getElem?_eq_some_iff.mp hstep
  unfold stepIndex?
  rw [List.findIdx?_eq_some_iff_getElem]
  refine ⟨hi, by simp [hget], ?_⟩
  intro j hj hid
  rw [decide_eq_true_eq, ← hget] at hid
  have hlt : j < agent.steps.length := by omega
  have hne := List.pairwise_iff_getElem.mp h j i (by simpa using hlt) (by simpa using hi) hj
  rw [List.getElem_map, List.getElem_map] at hne
  exact hne hid

theorem readTimeout_pos (id : String) (fields : List Entry)
    : ∀ n ∈ (readTimeout id fields).value, 0 < n := by
  intro n
  unfold readTimeout
  split
  . intro hn
    cases hn
  . split
    . next found hfound =>
      intro hn
      cases hn
      simpa using (Option.filter_eq_some_iff.mp hfound).2
    . intro hn
      cases hn

theorem readStep_wellFormed {site : StepSite} {fields : List Entry} {step : Step}
    (h : (readStep site fields).value = some step)
    : step.WellFormed ∧ step.line = site.line := by
  revert h
  unfold readStep
  split
  . intro h
    cases h
  . next id hid =>
    split
    . intro h
      cases h
    . next kind hkind =>
      intro h
      cases h
      have hidText := notBlank_iff.mp (Option.filter_eq_some_iff.mp hid).2
      have hkindText := notBlank_iff.mp (Option.filter_eq_some_iff.mp hkind).2
      refine ⟨⟨hidText, hkindText, readTimeout_pos id fields, ?_⟩, rfl⟩
      intro name hname
      exact notBlank_iff.mp (Option.filter_eq_some_iff.mp hname).2

theorem readFlatStep_wellFormed {entry : Entry} {step : Step}
    (h : (readFlatStep entry).value = some step)
    : step.WellFormed ∧ step.line = entry.1.line := by
  obtain ⟨label, node⟩ := entry
  revert h
  unfold readFlatStep
  dsimp only
  split
  . exact readStep_wellFormed
  . exact readStep_wellFormed
  . intro h
    cases h

theorem readListStep_wellFormed {item : Item} {step : Step}
    (h : (readListStep item).value = some step)
    : step.WellFormed ∧ step.line = item.1.line := by
  obtain ⟨place, node⟩ := item
  revert h
  unfold readListStep
  dsimp only
  split
  . exact readStep_wellFormed
  . intro h
    cases h

theorem filterMap_wellFormed {α : Type} {read : α → Option Step} {place : α → Nat}
    (h : ∀ {x step}, read x = some step → step.WellFormed ∧ step.line = place x) (xs : List α)
    : let steps := (xs.map read).filterMap fun step => step
      (∀ step ∈ steps, step.WellFormed) ∧ (steps.map Step.line).Sublist (xs.map place) := by
  dsimp only
  induction xs with
  | nil =>
    refine ⟨?_, .slnil⟩
    intro step hstep
    cases hstep
  | cons x rest ih =>
    obtain ⟨hsteps, hlines⟩ := ih
    rw [List.map_cons, List.map_cons]
    cases hread : read x with
    | none => exact ⟨hsteps, hlines.cons _⟩
    | some step =>
      obtain ⟨hstep, hline⟩ := h hread
      have hcons : (some step :: rest.map read).filterMap (fun step => step)
          = step :: (rest.map read).filterMap fun step => step := rfl
      rw [hcons, List.map_cons, List.forall_mem_cons, hline]
      exact ⟨⟨hstep, hsteps⟩, hlines.cons_cons _⟩

theorem readSteps_wellFormed (entry : Entry)
    : (∀ step ∈ (readSteps entry).value, step.WellFormed) ∧
      ((readSteps entry).value.map Step.line).Sublist (entry.1.line :: entry.2.places) := by
  have hnone : (∀ step ∈ ([] : List Step), step.WellFormed) ∧
      (([] : List Step).map Step.line).Sublist (entry.1.line :: entry.2.places) := by
    refine ⟨?_, List.nil_sublist _⟩
    intro step hstep
    cases hstep
  obtain ⟨label, node⟩ := entry
  unfold readSteps
  dsimp only
  cases node with
  | empty => exact hnone
  | scalar value => exact hnone
  | list items =>
    obtain ⟨hsteps, hlines⟩ := filterMap_wellFormed readListStep_wellFormed items
    exact ⟨hsteps, hlines.cons _⟩
  | map entries =>
    obtain ⟨hsteps, hlines⟩ := filterMap_wellFormed readFlatStep_wellFormed entries
    exact ⟨hsteps, hlines.cons _⟩

theorem secretDecl_source (name : String) (source : Option String) (line : Nat)
    : ':' ∈ (secretDecl name source line).source.toList := by
  unfold secretDecl
  split
  . dsimp only
    split
    . next hcontains => simpa using hcontains
    . simp
  . simp

theorem readSecrets_source (entry : Entry)
    : ∀ secret ∈ (readSecrets entry).value, ':' ∈ secret.source.toList := by
  have hentries (entries : List Entry) : ∀ secret ∈ entries.map secretOfEntry,
      ':' ∈ secret.source.toList := by
    rw [List.forall_mem_map]
    intro field _
    exact secretDecl_source ..
  have hitem (item : Item) : ∀ secret ∈ (readSecretItem item).value, ':' ∈ secret.source.toList := by
    obtain ⟨place, node⟩ := item
    unfold readSecretItem
    dsimp only
    split
    . intro secret hsecret
      rw [List.mem_singleton.mp hsecret]
      exact secretDecl_source ..
    . exact hentries _
    . intro secret hsecret
      cases hsecret
  obtain ⟨label, node⟩ := entry
  unfold readSecrets
  dsimp only
  split
  . intro secret hsecret
    obtain ⟨found, hfound, hmem⟩ := List.mem_flatten.mp hsecret
    obtain ⟨item, _, rfl⟩ := List.mem_map.mp hfound
    exact hitem item secret hmem
  . exact hentries _
  . intro secret hsecret
    cases hsecret
  . intro secret hsecret
    cases hsecret

theorem insert_ne_nil (key : String) (value : Json) (fields : Json.Fields)
    : fields.insert key value ≠ [] := by
  intro hnil
  have hget := Json.Fields.get?_insert key key value fields
  rw [hnil, if_pos rfl] at hget
  cases hget

theorem entriesToJson_ne_nil (entries : List Entry) {fields : Json.Fields}
    (h : fields ≠ [] ∨ entries ≠ [])
    : Node.entriesToJson fields entries ≠ [] := by
  induction entries generalizing fields with
  | nil =>
    cases h with
    | inl hfields => exact hfields
    | inr hentries => exact absurd rfl hentries
  | cons entry rest ih =>
    obtain ⟨label, node⟩ := entry
    exact ih (.inl (insert_ne_nil _ _ _))

theorem readTrigger_says {entry : Entry} (hfilled : entry.2.isFilled)
    (h : errorsAmong (readTrigger entry).notes = [])
    : (readTrigger entry).value.spec.isSome ∨ (readTrigger entry).value.fields ≠ [] := by
  obtain ⟨label, node⟩ := entry
  revert h
  unfold readTrigger
  dsimp only
  split
  . intro _
    exact .inl rfl
  . next fields =>
    intro _
    refine .inr (entriesToJson_ne_nil fields (.inr ?_))
    rintro rfl
    cases hfilled
  . simp [errorAt]
  . simp [errorAt]

/-- What holds of an agent while its sections are read, with the places of what has been read. -/
structure Draft.WellFormed (places : List Nat) (draft : Draft) : Prop where
  trigger : draft.hasTrigger → draft.agent.trigger.spec.isSome ∨ draft.agent.trigger.fields ≠ []
  secrets : ∀ secret ∈ draft.agent.secrets, ':' ∈ secret.source.toList
  steps : ∀ step ∈ draft.agent.steps, step.WellFormed
  lines : (draft.agent.steps.map Step.line).Sublist places

namespace Draft

variable {places : List Nat} {draft : Draft}

theorem WellFormed.mono {m : List Nat} (h : draft.WellFormed places)
    : draft.WellFormed (places ++ m) := by
  obtain ⟨htrigger, hsecrets, hsteps, hlines⟩ := h
  exact ⟨htrigger, hsecrets, hsteps, hlines.trans (List.sublist_append_left ..)⟩

theorem WellFormed.addSteps (h : draft.WellFormed places) {steps : List Step} {more : List Nat}
    (hsteps : ∀ step ∈ steps, step.WellFormed) (hlines : (steps.map Step.line).Sublist more)
    : WellFormed (places ++ more)
        { draft with
          agent := { draft.agent with steps := draft.agent.steps ++ steps }, hasSteps := true } := by
  refine ⟨h.trigger, h.secrets, ?_, ?_⟩
  . rw [List.forall_mem_append]
    exact ⟨h.steps, hsteps⟩
  . rw [List.map_append]
    exact h.lines.append hlines

theorem readSection_wellFormed (h : draft.WellFormed places) {entry : Entry}
    (hfilled : entry.2.isFilled) (hnotes : errorsAmong (draft.readSection entry).notes = [])
    : (draft.readSection entry).value.WellFormed (places ++ entry.1.line :: entry.2.places) := by
  have hkept := h.mono (m := entry.1.line :: entry.2.places)
  revert hnotes
  unfold readSection
  dsimp only
  split
  . intro _
    exact ⟨hkept.trigger, hkept.secrets, hkept.steps, hkept.lines⟩
  . rw [Noted.bind_notes, errorsAmong_append, List.append_eq_nil_iff]
    rintro ⟨htrigger, _⟩
    exact ⟨fun _ => readTrigger_says hfilled htrigger, hkept.secrets, hkept.steps, hkept.lines⟩
  . intro _
    refine ⟨hkept.trigger, ?_, hkept.steps, hkept.lines⟩
    rw [Noted.bind_value, Noted.pure_value]
    dsimp only
    rw [List.forall_mem_append]
    exact ⟨h.secrets, readSecrets_source entry⟩
  . intro _
    exact ⟨hkept.trigger, hkept.secrets, hkept.steps, hkept.lines⟩
  . intro _
    obtain ⟨hsteps, hlines⟩ := readSteps_wellFormed entry
    exact h.addSteps hsteps hlines
  . intro _
    exact ⟨hkept.trigger, hkept.secrets, hkept.steps, hkept.lines⟩
  . intro _
    exact hkept

theorem addEntry_wellFormed (h : draft.WellFormed places) {entry : Entry}
    (hfilled : entry.2.isFilled) (hnotes : errorsAmong (draft.addEntry entry).notes = [])
    : (draft.addEntry entry).value.WellFormed (places ++ entry.1.line :: entry.2.places) := by
  revert hnotes
  unfold addEntry
  split
  . -- a step header outside of the section of steps
    intro _
    have hflat (step : Step) (hstep : (readFlatStep entry).value = some step) :=
      readFlatStep_wellFormed hstep
    rw [Noted.bind_value, Noted.pure_value]
    cases hread : (readFlatStep entry).value with
    | none => exact h.addSteps (List.forall_mem_nil _) (List.nil_sublist _)
    | some step =>
      obtain ⟨hstep, hline⟩ := hflat step hread
      apply h.addSteps
      . rw [Option.toList_some, List.forall_mem_singleton]
        exact hstep
      . rw [Option.toList_some, List.map_singleton, hline]
        exact (List.nil_sublist _).cons_cons _
  . rw [Noted.bind_notes, errorsAmong_append, List.append_eq_nil_iff]
    rintro ⟨_, hnotes⟩
    have hseen (seen : List String) : WellFormed places { draft with seen } :=
      ⟨h.trigger, h.secrets, h.steps, h.lines⟩
    exact readSection_wellFormed (hseen _) hfilled hnotes

theorem foldlM_wellFormed (h : draft.WellFormed places) {entries : List Entry}
    (hfilled : ∀ entry ∈ entries, entry.2.isFilled)
    (hnotes : errorsAmong (entries.foldlM addEntry draft).notes = [])
    : (entries.foldlM addEntry draft).value.WellFormed (places ++ treePlaces entries) := by
  -- every section adds its own places, so that the last draft has those of the whole tree
  induction entries generalizing draft places with
  | nil =>
    rw [treePlaces, List.flatMap_nil, List.append_nil]
    exact h
  | cons entry rest ih =>
    obtain ⟨hentry, hrest⟩ := List.forall_mem_cons.mp hfilled
    rw [List.foldlM_cons, Noted.bind_notes, errorsAmong_append, List.append_eq_nil_iff] at hnotes
    have hmore := ih (addEntry_wellFormed h hentry hnotes.1) hrest hnotes.2
    rw [List.append_assoc] at hmore
    rw [List.foldlM_cons, Noted.bind_value, treePlaces, List.flatMap_cons]
    exact hmore

end Draft

def Header.IsComplete (header : Header) : Prop :=
  header.id ≠ "" ∧ header.version ≠ ""

theorem readHeader_isComplete {line : Line} {args : List String}
    (h : errorsAmong (readHeader line args).notes = [])
    : (readHeader line args).value.IsComplete := by
  revert h
  unfold readHeader Header.IsComplete
  dsimp only
  split
  . simp
  . next hempty =>
    intro _
    simpa using hempty

theorem outline_isComplete {header : Option Header} (hheader : ∀ first ∈ header, first.IsComplete)
    {lines : List Line} (h : errorsAmong (outline header lines).notes = [])
    : (∀ first ∈ (outline header lines).value.header, first.IsComplete) ∧
      (outline header lines).value.body.Sublist lines := by
  induction lines generalizing header with
  | nil => exact ⟨hheader, .slnil⟩
  | cons line rest ih =>
    revert h
    unfold outline
    split
    . split
      . simp [Noted.note]
      . next args _ _ =>
        rw [Noted.bind_notes, errorsAmong_append, List.append_eq_nil_iff]
        rintro ⟨hread, hrest⟩
        have hsome : ∀ first ∈ some (readHeader line args).value, first.IsComplete := by
          intro first hfirst
          cases hfirst
          exact readHeader_isComplete hread
        obtain ⟨hcomplete, hbody⟩ := ih hsome hrest
        exact ⟨hcomplete, hbody.cons line⟩
    . intro _
      exact ⟨hheader, List.nil_sublist _⟩
    . rw [Noted.bind_notes, errorsAmong_append, List.append_eq_nil_iff]
      rintro ⟨_, hrest⟩
      obtain ⟨hcomplete, hbody⟩ := ih hheader hrest
      exact ⟨hcomplete, hbody.cons line⟩
    . rw [Noted.bind_notes, errorsAmong_append, List.append_eq_nil_iff]
      rintro ⟨hrest, _⟩
      obtain ⟨hcomplete, hbody⟩ := ih hheader hrest
      exact ⟨hcomplete, hbody.cons_cons line⟩

theorem hasTrigger_of_triggerNotes {header : Header} {draft : Draft}
    (h : errorsAmong (triggerNotes (some header) draft) = [])
    : draft.hasTrigger := by
  revert h
  unfold triggerNotes
  dsimp only
  split
  . next hhas =>
    intro _
    exact hhas
  . simp

theorem completed_wellFormed {header : Header} (hheader : header.IsComplete) {draft : Draft}
    {places : List Nat} (hdraft : draft.WellFormed places) (htrigger : draft.hasTrigger)
    (hplaces : places.Pairwise (· < ·)) {agent : Agent}
    (hagent : completed (some header) draft = some agent) (hids : (agent.steps.map Step.id).Nodup)
    : agent.WellFormed := by
  have hsays := hdraft.trigger htrigger
  have hlines := hplaces.sublist hdraft.lines
  unfold completed at hagent
  cases hagent
  exact {
    id := hheader.1
    version := hheader.2
    trigger := hsays
    secrets := hdraft.secrets
    steps := hdraft.steps
    ids := hids
    index := fun i step hstep => stepIndex?_of_nodup hids hstep
    lines := hlines }

/-- An agent that is read without an error is well formed. -/
theorem wellFormed_of_valid {source : String} {agent : Agent}
    (h : (Agent.parse source).valid? = .ok agent)
    : agent.WellFormed := by
  obtain ⟨hagent, herrors⟩ := (Parsed.valid?_eq_ok_iff _ _).mp h
  have hnumbers := pairwise_numbers 1 0 (rawLinesOf source.toList)
  rw [Agent.parse_eq rfl] at hagent herrors
  dsimp only at hagent herrors
  rw [Report.sorted_errors_eq_nil_iff, errorsAmong_append, errorsAmong_append, hagent] at herrors
  change (numbers (linesOf source).value).Pairwise (· < ·) at hnumbers
  generalize linesOf source = lines at hagent herrors hnumbers
  rw [ofLines_eq rfl rfl rfl] at hagent herrors
  simp only [errorsAmong_append, List.append_eq_nil_iff] at herrors
  -- every part of the reading is without an error of its own
  obtain ⟨⟨_, hparts, hheader, htree, hdraft, htrigger⟩, hcheck⟩ := herrors
  obtain ⟨hcomplete, hbody⟩ := outline_isComplete (by simp) hparts
  have hempty : Draft.WellFormed [] {} := by
    refine ⟨?_, List.forall_mem_nil _, List.forall_mem_nil _, .slnil⟩
    intro hnever
    cases hnever
  have hread := Draft.foldlM_wellFormed hempty (isFilled_buildTree htree) hdraft
  have hplaces := (treePlaces_buildTree (outline none lines.value).value.body).trans (hbody.map _)
  cases hfirst : (outline none lines.value).value.header with
  | none =>
    rw [hfirst] at hheader
    simp [headerNotes] at hheader
  | some header =>
    rw [hfirst] at hagent htrigger
    exact completed_wellFormed (hcomplete header hfirst) hread (hasTrigger_of_triggerNotes htrigger)
      (hnumbers.sublist hplaces) hagent ((errorsAmong_check agent).mp hcheck)

theorem wellFormed_of_valid_sections
    : let source := String.intercalate "\n"
        ["@agent hello v1",
          "trigger:",
          "  method: POST",
          "secrets:",
          "  - TOKEN",
          "steps:",
          "  - id: ask",
          "    kind: llm",
          "    timeout_ms: 50",
          "step tell: http",
          ""]
      ∃ agent, (Agent.parse source).valid? = .ok agent ∧ agent.WellFormed := by
  intro source
  have hvalid : (Agent.parse source).valid?.toOption.isSome := by
    decide +kernel
  cases hparsed : (Agent.parse source).valid? with
  | error report =>
    rw [hparsed] at hvalid
    cases hvalid
  | ok agent => exact ⟨agent, rfl, wellFormed_of_valid hparsed⟩

end Runbook.Agent
