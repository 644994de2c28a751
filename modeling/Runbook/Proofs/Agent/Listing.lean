import Runbook.Proofs.Agent.Field
import Runbook.Proofs.Agent.Section

/-!
This module contains agents whose steps are written as a list. Each of them is read without an
error, and its steps are those that were written, in their order.
-/

namespace Runbook.Agent

open Source

/-- The rows of steps as a list. -/
def listed (indent : Nat) (word : String → Atom) (specs : List StepSpec) : List Row :=
  Document.itemRows indent (specs.map fun spec => .map (spec.fields .list word))

theorem itemsTidy_listed {word : String → Atom} {specs : List StepSpec}
    (h : ∀ spec ∈ specs, spec.Valid ∧ spec.Writes word)
    : Document.itemsTidy (specs.map fun spec => .map (spec.fields .list word)) := by
  rw [Document.itemsTidy_iff, List.forall_mem_map]
  intro spec hspec
  obtain ⟨hvalid, hword⟩ := h spec hspec
  rw [Document.isTidy_map]
  exact ⟨List.cons_ne_nil _ _, StepSpec.entriesTidy_fields hvalid hword .list⟩

theorem filterMap_mapAll {α : Type} {read : α → Noted (Option Step)} {xs : List α}
    {steps : List Step} (h : Noted.mapAll read xs = pure (steps.map some))
    : (do
        let found ← Noted.mapAll read xs
        return found.filterMap fun step => step)
        =
      (⟨steps, []⟩ : Noted (List Step)) := by
  rw [h]
  dsimp only [bind, pure]
  rw [List.filterMap_map]
  exact congrArg (Noted.mk · []) List.filterMap_some

theorem map_id_of_unplaced {steps others : List Step} (h : steps.map Step.unplaced = others)
    : steps.map Step.id = others.map Step.id := by
  rw [← h, List.map_map]
  rfl

theorem noDirective_linesFrom {number : Nat} {rows : List Row}
    : ∀ line ∈ linesFrom number rows, ∀ name args, line.token ≠ .directive name args := by
  intro line hline name args
  obtain ⟨row, _, _, htoken⟩ := mem_linesFrom hline
  rw [htoken]
  cases row <;> exact Token.noConfusion

theorem readListStep_fields (indent number : Nat) {word : String → Atom} {spec : StepSpec}
    (h : spec.Valid) (hword : spec.Writes word)
    : readListStep (⟨number, indent + 1⟩,
          .map (Document.entryNodes (indent + 2) number (spec.fields .list word)))
        =
      pure (some { spec.step .list with line := number }) :=
  StepSpec.readStep_fields (indent + 2) number h hword .list number (indent + 1)

theorem mapAll_listed (indent number : Nat) {word : String → Atom} {specs : List StepSpec}
    (h : ∀ spec ∈ specs, spec.Valid ∧ spec.Writes word)
    : ∃ steps : List Step,
        Noted.mapAll readListStep (Document.itemNodes indent number
            (specs.map fun spec => .map (spec.fields .list word)))
          =
        pure (steps.map some) ∧
        steps.map Step.unplaced = specs.map (·.step .list) := by
  induction specs generalizing number with
  | nil => exact ⟨[], rfl, rfl⟩
  | cons spec rest ih =>
    obtain ⟨⟨hvalid, hword⟩, hrest⟩ := List.forall_mem_cons.mp h
    have hfirst := readListStep_fields indent number hvalid hword
    obtain ⟨steps, hsteps, hspecs⟩ := ih
      (number + (Document.entryRows (indent + 2) (spec.fields .list word)).length) hrest
    refine ⟨{ spec.step .list with line := number } :: steps, ?_, ?_⟩
    . rw [List.map_cons, Document.itemNodes]
      exact Noted.mapAll_cons hfirst hsteps
    . rw [List.map_cons, List.map_cons, hspecs]
      rfl

theorem readSteps_listed (indent : Nat) {word : String → Atom} {specs : List StepSpec}
    (h : ∀ spec ∈ specs, spec.Valid ∧ spec.Writes word)
    : let lines := linesFrom 4 (listed indent word specs)
      ∃ node steps,
        buildValue 0 stepsLine none lines = ⟨node, []⟩ ∧
        afterValue 0 none lines = [] ∧
        readSteps (stepsLabel, node) = ⟨steps, []⟩ ∧
        steps.map Step.unplaced = specs.map (·.step .list) := by
  intro lines
  by_cases hempty : specs = []
  . rw [hempty]
    refine ⟨.empty, [], ?_, ?_, rfl, rfl⟩
    . unfold lines buildValue
      rw [hempty]
      rfl
    . unfold lines
      rw [hempty]
      rfl
  . have hne : (specs.map fun spec => Document.map (spec.fields .list word)) ≠ [] := by
      rw [Ne, List.map_eq_nil_iff]
      exact hempty
    obtain ⟨hvalue, hafter⟩ := Document.buildValue_itemRows 4 hne (itemsTidy_listed h)
      (Nat.zero_le indent) stepsLine
    obtain ⟨steps, hsteps, hspecs⟩ := mapAll_listed indent 4 h
    exact ⟨_, steps, hvalue, hafter, filterMap_mapAll hsteps, hspecs⟩

/--
An agent whose steps are written as a list is read without an error, and its steps are those that
were written, each with all its fields.
-/
theorem parse_listed {id version : String} (hid : isArgument id) (hversion : isArgument version)
    {specs : List StepSpec} (h : ∀ spec ∈ specs, spec.Valid)
    (hnodup : (specs.map StepSpec.id).Nodup) (indent : Nat)
    : let parsed := Agent.parse (sourceOf id version (write (listed indent .quoted specs)))
      parsed.report.errors = [] ∧
      ∃ agent,
        parsed.agent = some agent ∧
        agent.id = id ∧
        agent.version = version ∧
        agent.steps.map Step.unplaced = specs.map (·.step .list) := by
  dsimp only
  have hwrites : ∀ spec ∈ specs, spec.Valid ∧ spec.Writes .quoted := by
    intro spec hspec
    exact ⟨h spec hspec, fun text _ => ⟨rfl, rfl⟩⟩
  obtain ⟨node, steps, hvalue, hafter, hsteps, hspecs⟩ := readSteps_listed indent hwrites
  have hrows : ∀ row ∈ listed indent .quoted specs, row.isTidy :=
    Document.isTidy_of_mem_itemRows _ (itemsTidy_listed hwrites)
  have hids : (steps.map Step.id).Nodup := by
    rw [map_id_of_unplaced hspecs, List.map_map]
    exact hnodup
  obtain ⟨herrors, hagent⟩ := parse_sourceOf hid hversion (readsAs_write hrows) noDirective_linesFrom
    hvalue hafter hsteps hids
  exact ⟨herrors, _, hagent, rfl, rfl, hspecs⟩

def twoSteps : List StepSpec :=
  [{ id := "get \"it\""
     kind := "http"
     provider := some "acme # eu"
     config := [("url", .str "\x7bhost\x7d/a: b"),
       ("head ers", .obj [("x", .arr [.int (-5), .null, .obj [("y", .bool true)]])])]
     guard := some "\x7bready\x7d == true"
     retries := some 4294967295
     timeout := some 9223372036854775807
     save := some "page" },
   { id := "sum up", kind := "llm" }]

theorem parse_listed_twoSteps
    : let source := String.intercalate "\n"
        ["@agent hello v1",
          "trigger: manual",
          "steps:",
          "  - id: \"get \\\"it\\\"\"",
          "    kind: \"http\"",
          "    provider: \"acme # eu\"",
          "    when: \"\x7bready\x7d == true\"",
          "    retries: 4294967295",
          "    timeout_ms: 9223372036854775807",
          "    save: \"page\"",
          "    \"url\": \"\x7bhost\x7d/a: b\"",
          "    \"head ers\":",
          "      \"x\":",
          "        - -5",
          "        - null",
          "        - \"y\": true",
          "  - id: \"sum up\"",
          "    kind: \"llm\"",
          ""]
      sourceOf "hello" "v1" (write (listed 2 .quoted twoSteps)) = source ∧
      (Agent.parse source).report.errors = [] ∧
      ∃ agent,
        (Agent.parse source).agent = some agent ∧
        agent.id = "hello" ∧
        agent.version = "v1" ∧
        agent.steps.map Step.unplaced = twoSteps.map (·.step .list) := by
  intro source
  have hsource : sourceOf "hello" "v1" (write (listed 2 .quoted twoSteps)) = source := by
    decide +kernel
  have hvalid : ∀ spec ∈ twoSteps, spec.Valid := by
    unfold twoSteps
    rw [List.forall_mem_cons, List.forall_mem_singleton]
    constructor
    . constructor <;> decide
    . constructor <;> decide
  have hparse := parse_listed (by decide : isArgument "hello") (by decide : isArgument "v1") hvalid
    (by decide) 2
  rw [hsource] at hparse
  exact ⟨hsource, hparse⟩

end Runbook.Agent
