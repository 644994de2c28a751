import Mathlib.Data.List.Forall2
import Runbook.Proofs.Agent.Parsed
import Runbook.Source.Tree

/-!
This module contains the blocks of fields in a text that are steps. Where there is no error each of
them is read as a step of its own, and what becomes of its guard is decided by the first of its
fields `when`.
-/

namespace Runbook.Agent

open Source

/-- A block of fields that is a step. -/
structure StepBlock where
  site : StepSite
  fields : List Entry

namespace StepBlock

/-- The block below a step header, or below the id of a step in the section of steps. -/
def ofKeyed? (entry : Entry) : Option StepBlock :=
  let (label, node) := entry
  let site : StepSite :=
    { id := some label.key, head := label.head, line := label.line, column := label.column,
      form := .flat }
  match node with
  | .map fields => some ⟨site, fields⟩
  | .empty => some ⟨site, []⟩
  | _ => none

def ofItem? (item : Item) : Option StepBlock :=
  let (place, node) := item
  match node with
  | .map fields => some ⟨{ line := place.line, column := place.column, form := .list }, fields⟩
  | _ => none

def inSection : Node → List StepBlock
  | .list items => items.filterMap ofItem?
  | .map entries => entries.filterMap ofKeyed?
  | _ => []

/-- The blocks at an entry at the top of a text: a step header, or a section. -/
def atEntry (entry : Entry) : List StepBlock :=
  if entry.1.head.isSome then
    (ofKeyed? entry).toList
  else if entry.1.key = "steps" then
    inSection entry.2
  else
    []

/-- Whether a block has a field `when` with a value, of whatever shape it is. -/
def asksForGuard (block : StepBlock) : Bool :=
  block.fields.any fun (label, node) =>
    label.key = "when" && match node with
      | .empty => false
      | _ => true

/-- The first of the fields `when` of a block has a scalar as its value. -/
def HasGuard (block : StepBlock) (value : Scalar) : Prop :=
  ∃ before label after,
    block.fields = before ++ (label, .scalar value) :: after ∧
    label.key = "when" ∧
    ∀ field ∈ before, field.1.key ≠ "when"

/-- A step that was read from a block. -/
structure Yields (block : StepBlock) (step : Step) : Prop where
  line : step.line = block.site.line
  form : step.form = block.site.form
  guard : ∀ text, step.guard = some text ↔ ∃ value, block.HasGuard value ∧ value.text = text

theorem Yields.guard_isSome_iff {block : StepBlock} {step : Step} (h : block.Yields step)
    : step.guard.isSome ↔ ∃ value, block.HasGuard value := by
  rw [Option.isSome_iff_exists]
  constructor
  . rintro ⟨text, htext⟩
    obtain ⟨value, hvalue, _⟩ := (h.guard text).mp htext
    exact ⟨value, hvalue⟩
  . rintro ⟨value, hvalue⟩
    exact ⟨value.text, (h.guard value.text).mpr ⟨value, hvalue, rfl⟩⟩

theorem guards_kept_iff_of_yields {blocks : List StepBlock} {steps : List Step}
    (h : List.Forall₂ Yields blocks steps)
    : List.Forall₂ (fun block step => block.asksForGuard → step.guard.isSome) blocks steps ↔
      ∀ block ∈ blocks, block.asksForGuard → ∃ value, block.HasGuard value := by
  induction h with
  | nil => simp
  | cons hyields _ ih =>
    rw [List.forall₂_cons, List.forall_mem_cons, ih, hyields.guard_isSome_iff]

end StepBlock

/-- The tree of a text, without its directives and what is below its end. -/
def treeOf (source : String) : List Entry :=
  (buildTree (outline none (linesOf source).value).value.body).value

/-- The step blocks of a text, in their order. -/
def stepBlocks (source : String) : List StepBlock :=
  (treeOf source).flatMap StepBlock.atEntry

theorem fieldText?_eq_some_iff {fields : List Entry} {name text : String}
    : fieldText? fields name = some text ↔
      ∃ value,
        (∃ before label after,
          fields = before ++ (label, .scalar value) :: after ∧
          label.key = name ∧
          ∀ field ∈ before, field.1.key ≠ name) ∧
        value.text = text := by
  unfold fieldText? field?
  rw [Option.map_eq_some_iff]
  apply exists_congr
  intro value
  apply and_congr_left'
  constructor
  . intro h
    obtain ⟨⟨label, node⟩, hfield, hscalar⟩ := Option.bind_eq_some_iff.mp h
    obtain ⟨hname, before, after, hfields, hbefore⟩ := List.find?_eq_some_iff_append.mp hfield
    have hnode : node = .scalar value := by
      cases node with
      | scalar other =>
        simp only [Node.scalar?, Option.some.injEq] at hscalar
        rw [hscalar]
      | empty => cases hscalar
      | map entries => cases hscalar
      | list items => cases hscalar
    rw [hnode] at hfields
    refine ⟨before, label, after, hfields, by simpa using hname, ?_⟩
    intro field hmem
    simpa using hbefore field hmem
  . rintro ⟨before, label, after, hfields, hname, hbefore⟩
    apply Option.bind_eq_some_iff.mpr
    refine ⟨(label, .scalar value), List.find?_eq_some_iff_append.mpr ?_, rfl⟩
    refine ⟨by simpa using hname, before, after, hfields, ?_⟩
    intro field hmem
    simpa using hbefore field hmem

theorem readStep_yields (block : StepBlock)
    (h : errorsAmong (readStep block.site block.fields).notes = [])
    : ∃ step, (readStep block.site block.fields).value = some step ∧ block.Yields step := by
  revert h
  unfold readStep
  split
  . simp
  . split
    . simp
    . intro _
      refine ⟨_, rfl, rfl, rfl, ?_⟩
      intro text
      exact fieldText?_eq_some_iff

def StepBlock.IsRead {α : Type} (block? : α → Option StepBlock) (read : α → Noted (Option Step))
    : Prop :=
  ∀ x, errorsAmong (read x).notes = [] →
    ∃ block step, block? x = some block ∧ (read x).value = some step ∧ block.Yields step

theorem readFlatStep_isRead : StepBlock.IsRead StepBlock.ofKeyed? readFlatStep := by
  rintro ⟨label, node⟩
  unfold readFlatStep StepBlock.ofKeyed?
  dsimp only
  split
  . next fields =>
    intro h
    obtain ⟨step, hstep, hyields⟩ := readStep_yields ⟨_, fields⟩ h
    exact ⟨_, step, rfl, hstep, hyields⟩
  . intro h
    obtain ⟨step, hstep, hyields⟩ := readStep_yields ⟨_, []⟩ h
    exact ⟨_, step, rfl, hstep, hyields⟩
  . simp [errorAt]

theorem readListStep_isRead : StepBlock.IsRead StepBlock.ofItem? readListStep := by
  rintro ⟨place, node⟩
  unfold readListStep StepBlock.ofItem?
  dsimp only
  split
  . next fields =>
    intro h
    obtain ⟨step, hstep, hyields⟩ := readStep_yields ⟨_, fields⟩ h
    exact ⟨_, step, rfl, hstep, hyields⟩
  . simp

theorem StepBlock.IsRead.mapAll {α : Type} {block? : α → Option StepBlock}
    {read : α → Noted (Option Step)} (hread : IsRead block? read) {xs : List α}
    (h : errorsAmong (Noted.mapAll read xs).notes = [])
    : List.Forall₂ Yields (xs.filterMap block?)
        ((Noted.mapAll read xs).value.filterMap fun step => step) := by
  induction xs with
  | nil => exact .nil
  | cons x rest ih =>
    change errorsAmong ((read x).notes ++ (Noted.mapAll read rest).notes) = [] at h
    rw [errorsAmong_append, List.append_eq_nil_iff] at h
    obtain ⟨hx, hrest⟩ := h
    obtain ⟨block, step, hblock, hstep, hyields⟩ := hread x hx
    have hvalue : (Noted.mapAll read (x :: rest)).value
        = some step :: (Noted.mapAll read rest).value :=
      congrArg (· :: _) hstep
    rw [hvalue, List.filterMap_cons_some hblock]
    exact .cons hyields (ih hrest)

theorem readSteps_yields {entry : Entry} (h : errorsAmong (readSteps entry).notes = [])
    : List.Forall₂ StepBlock.Yields (StepBlock.inSection entry.2) (readSteps entry).value := by
  obtain ⟨label, node⟩ := entry
  revert h
  unfold readSteps
  dsimp only
  cases node with
  | empty =>
    intro _
    exact .nil
  | scalar value => simp [errorAt]
  | list items =>
    rw [Noted.bind_notes, errorsAmong_append, List.append_eq_nil_iff]
    rintro ⟨hitems, _⟩
    exact readListStep_isRead.mapAll hitems
  | map entries =>
    rw [Noted.bind_notes, errorsAmong_append, List.append_eq_nil_iff]
    rintro ⟨hentries, _⟩
    exact readFlatStep_isRead.mapAll hentries

namespace Draft

variable {blocks : List StepBlock} {draft : Draft}

theorem readSection_yields (h : List.Forall₂ StepBlock.Yields blocks draft.agent.steps)
    {entry : Entry} (hnotes : errorsAmong (draft.readSection entry).notes = [])
    : List.Forall₂ StepBlock.Yields
        (blocks ++ if entry.1.key = "steps" then StepBlock.inSection entry.2 else [])
        (draft.readSection entry).value.agent.steps := by
  have hkept (hkey : entry.1.key ≠ "steps") : List.Forall₂ StepBlock.Yields
      (blocks ++ if entry.1.key = "steps" then StepBlock.inSection entry.2 else [])
      draft.agent.steps := by
    rw [if_neg hkey, List.append_nil]
    exact h
  revert hnotes
  unfold readSection
  dsimp only
  split
  . next hkey => exact fun _ => hkept (by simp [hkey])
  . next hkey => exact fun _ => hkept (by simp [hkey])
  . next hkey => exact fun _ => hkept (by simp [hkey])
  . next hkey => exact fun _ => hkept (by simp [hkey])
  . next hkey =>
    rw [Noted.bind_notes, errorsAmong_append, List.append_eq_nil_iff, if_pos hkey]
    rintro ⟨hread, _⟩
    exact List.rel_append h (readSteps_yields hread)
  . next hkey => exact fun _ => hkept (by simp [hkey])
  . next hkey _ => exact fun _ => hkept hkey

theorem addEntry_yields (h : List.Forall₂ StepBlock.Yields blocks draft.agent.steps)
    {entry : Entry} (hnotes : errorsAmong (draft.addEntry entry).notes = [])
    : List.Forall₂ StepBlock.Yields (blocks ++ StepBlock.atEntry entry)
        (draft.addEntry entry).value.agent.steps := by
  revert hnotes
  unfold addEntry StepBlock.atEntry
  split
  . rw [Noted.bind_notes, errorsAmong_append, List.append_eq_nil_iff]
    rintro ⟨hread, _⟩
    obtain ⟨block, step, hblock, hstep, hyields⟩ := readFlatStep_isRead entry hread
    rw [Noted.bind_value, hblock, hstep]
    exact List.rel_append h (.cons hyields .nil)
  . rw [Noted.bind_notes, errorsAmong_append, List.append_eq_nil_iff]
    rintro ⟨_, hsection⟩
    have hseen (seen : List String)
        : List.Forall₂ StepBlock.Yields blocks { draft with seen }.agent.steps := h
    exact readSection_yields (hseen _) hsection

theorem foldlM_yields (h : List.Forall₂ StepBlock.Yields blocks draft.agent.steps)
    {entries : List Entry} (hnotes : errorsAmong (entries.foldlM addEntry draft).notes = [])
    : List.Forall₂ StepBlock.Yields (blocks ++ entries.flatMap StepBlock.atEntry)
        (entries.foldlM addEntry draft).value.agent.steps := by
  -- every entry adds its own blocks, and their steps to those that the draft has
  induction entries generalizing draft blocks with
  | nil =>
    rw [List.flatMap_nil, List.append_nil]
    exact h
  | cons entry rest ih =>
    rw [List.foldlM_cons, Noted.bind_notes, errorsAmong_append, List.append_eq_nil_iff] at hnotes
    have hrest := ih (addEntry_yields h hnotes.1) hnotes.2
    rw [List.append_assoc] at hrest
    rw [List.foldlM_cons, Noted.bind_value, List.flatMap_cons]
    exact hrest

end Draft

theorem yields_of_parse {source : String} (h : (Agent.parse source).report.errors = [])
    : ∃ agent,
        (Agent.parse source).agent = some agent ∧
        List.Forall₂ StepBlock.Yields (stepBlocks source) agent.steps := by
  unfold stepBlocks treeOf
  rw [Agent.parse_eq rfl] at h ⊢
  dsimp only at h ⊢
  rw [Report.sorted_errors_eq_nil_iff, errorsAmong_append, errorsAmong_append] at h
  generalize linesOf source = lines at h ⊢
  rw [ofLines_eq rfl rfl rfl] at h ⊢
  simp only [errorsAmong_append, List.append_eq_nil_iff] at h
  obtain ⟨⟨_, _, hheader, _, hdraft, _⟩, _⟩ := h
  have hsteps := Draft.foldlM_yields .nil hdraft
  cases hfirst : (outline none lines.value).value.header with
  | none =>
    rw [hfirst] at hheader
    simp [headerNotes] at hheader
  | some header => exact ⟨_, rfl, hsteps⟩

/--
Every step block of a text without an error is a step. Such a text keeps all guards if and only if
the first field `when` of each block that asks for a guard is a scalar; a list or a block of fields
is lost.
-/
theorem guards_kept_iff {source : String} (h : (Agent.parse source).report.errors = [])
    : ∃ agent,
        (Agent.parse source).agent = some agent ∧
        List.Forall₂ StepBlock.Yields (stepBlocks source) agent.steps ∧
        (List.Forall₂ (fun block step => block.asksForGuard → step.guard.isSome)
            (stepBlocks source) agent.steps
          ↔
        ∀ block ∈ stepBlocks source, block.asksForGuard → ∃ value, block.HasGuard value) := by
  obtain ⟨agent, hagent, hyields⟩ := yields_of_parse h
  exact ⟨agent, hagent, hyields, StepBlock.guards_kept_iff_of_yields hyields⟩

theorem guards_kept_iff_of_notations
    : let source := String.intercalate "\n"
        ["@agent pay v1",
          "trigger: manual",
          "steps:",
          "  charge:",
          "    kind: http",
          "    when: [ok]",
          "step notify: http",
          ""]
      ∃ agent,
        (Agent.parse source).agent = some agent ∧
        List.Forall₂ StepBlock.Yields (stepBlocks source) agent.steps ∧
        agent.steps.map Step.guard = [some "[\"ok\"]", none] := by
  intro source
  have hparse : (Agent.parse source).report.errors = [] ∧
      (Agent.parse source).agent.map (fun agent => agent.steps.map Step.guard)
        =
      some [some "[\"ok\"]", none] := by
    decide +kernel
  obtain ⟨herrors, hguards⟩ := hparse
  obtain ⟨agent, hagent, hyields, _⟩ := guards_kept_iff herrors
  rw [hagent, Option.map_some, Option.some.injEq] at hguards
  exact ⟨agent, hagent, hyields, hguards⟩

/-- A guard that is written as a list on lines of its own is lost, and nothing is reported. -/
theorem guard_lost_of_list
    : let source := String.intercalate "\n"
        ["@agent pay v1",
          "trigger: manual",
          "steps:",
          "  - id: charge",
          "    kind: http",
          "    when:",
          "      - \"\x7bapproved\x7d\"",
          ""]
      (Agent.parse source).report = {} ∧
      (stepBlocks source).map StepBlock.asksForGuard = [true] ∧
      (Agent.parse source).agent.map (fun agent => agent.steps.map Step.guard) = some [none] := by
  decide +kernel

end Runbook.Agent
