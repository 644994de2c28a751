import Runbook.Proofs.Agent.Checks
import Runbook.Proofs.Agent.Report
import Runbook.Proofs.Source.Build
import Runbook.Proofs.Source.Header

/-!
This module contains agents with a header, a trigger, and steps in their section or next to the
trigger: what the lines below the trigger are built into decides what is read and which errors there
are.
-/

namespace Runbook.Agent

open Source

def topSourceOf (id version : String) (text : List Char) : String :=
  "@agent " ++ id ++ " " ++ version ++ "\ntrigger: manual\n" ++ String.ofList text

/-- An agent as it is written, from the text below the key of its steps. -/
def sourceOf (id version : String) (steps : List Char) : String :=
  "@agent " ++ id ++ " " ++ version ++ "\ntrigger: manual\nsteps:\n" ++ String.ofList steps

def triggerRow : Row :=
  .entry 0 (.plain "trigger") (some (.plain "manual"))

def stepsRow : Row :=
  .entry 0 (.plain "steps") none

def triggerLine : Line :=
  triggerRow.line 2

def stepsLine : Line :=
  stepsRow.line 3

def stepsLabel : Label :=
  stepsLine.label "steps"

def triggerDraft : Draft where
  agent := { trigger := { spec := some "manual", line := 2 } }
  seen := ["trigger"]
  hasTrigger := true

def stepsDraft (steps : List Step) : Draft where
  agent := { trigger := { spec := some "manual", line := 2 }, steps := steps }
  seen := ["trigger", "steps"]
  hasTrigger := true
  hasSteps := true

theorem sourceOf_eq_topSourceOf (id version : String) (steps : List Char)
    : sourceOf id version steps = topSourceOf id version (write [stepsRow] ++ steps) := by
  have hrows : "\ntrigger: manual\nsteps:\n".toList
      = "\ntrigger: manual\n".toList ++ write [stepsRow] := by
    decide
  rw [← String.toList_inj]
  unfold sourceOf topSourceOf
  simp only [String.toList_append, String.toList_ofList, hrows]
  simp

theorem outline_eq_pure (header : Option Header) {lines : List Line}
    (h : ∀ line ∈ lines, ∀ name args, line.token ≠ .directive name args)
    : outline header lines = pure { header, body := lines } := by
  induction lines with
  | nil => rfl
  | cons line rest ih =>
    obtain ⟨hline, hrest⟩ := List.forall_mem_cons.mp h
    unfold outline
    split
    . next hdirective => exact absurd hdirective (hline _ _)
    . next hdirective => exact absurd hdirective (hline _ _)
    . next hdirective => exact absurd hdirective (hline _ _)
    . rw [ih hrest]
      rfl

theorem outline_header {line : Line} {args : List String} (h : line.token = .directive "agent" args)
    (rest : List Line)
    : outline none (line :: rest)
        =
      readHeader line args >>= fun header => outline (some header) rest := by
  rw [outline, h]
  rfl

theorem buildTree_top {lines : List Line} (hends : EndsBefore 1 lines)
    : let entries := buildEntries 0 lines
      buildTree (triggerLine :: lines)
        =
      ⟨(triggerLine.label "trigger", .scalar (.atom (.plain "manual"))) :: entries.value,
        entries.notes⟩ := by
  intro entries
  have hvalue := hends.buildValue triggerLine (.atom (.plain "manual"))
  have hentries := buildEntries_cons hvalue hends.pastDeeper rfl
    (rfl : triggerLine.indent = 0) rfl
  unfold buildTree
  rw [if_neg (by decide), if_neg (by decide), hentries]
  rfl

theorem foldlM_top (entries : List Entry)
    : ((triggerLine.label "trigger", Node.scalar (.atom (.plain "manual"))) ::
          entries).foldlM Draft.addEntry {}
        =
      entries.foldlM Draft.addEntry triggerDraft := by
  let draft : Noted Draft := entries.foldlM Draft.addEntry triggerDraft
  change (⟨draft.value, [] ++ draft.notes⟩ : Noted Draft) = draft
  rw [List.nil_append]

theorem foldlM_stepsLabel (node : Node) (more : List Entry)
    : let read := readSteps (stepsLabel, node)
      let draft := more.foldlM Draft.addEntry (stepsDraft read.value)
      ((stepsLabel, node) :: more).foldlM Draft.addEntry triggerDraft
        =
      ⟨draft.value, read.notes ++ draft.notes⟩ := by
  intro read draft
  change (⟨draft.value, ([] ++ (read.notes ++ [])) ++ draft.notes⟩ : Noted Draft) = _
  rw [List.nil_append, List.append_nil]

theorem linesAt_stepsRow {text : List Char} {lines : Noted (List Line)}
    (h : linesAt 4 text = lines)
    : linesAt 3 (write [stepsRow] ++ text) = ⟨stepsLine :: lines.value, lines.notes⟩ := by
  have hrow := readsAs_write (by decide : ∀ row ∈ [stepsRow], row.isTidy)
  rw [hrow 3 text, ← h]
  rfl

variable {id version : String} (hid : isArgument id) (hversion : isArgument version)
include hid hversion

theorem readHeader_directiveLine
    : readHeader (directiveLine "agent" id version 1) [id, version] = ⟨⟨id, version, 1⟩, []⟩ := by
  have hne (text : String) (h : isArgument text) : text.isEmpty = false := by
    have htext := (isUnbroken_iff.mp (isArgument_iff.mp h).1).1
    rw [Bool.eq_false_iff]
    intro hempty
    rw [String.isEmpty_iff.mp hempty] at htext
    exact htext rfl
  unfold readHeader
  dsimp only [List.getElem?_cons_zero, List.getElem?_cons_succ, Option.getD_some]
  rw [hne id hid, hne version hversion]
  rfl

theorem ofLines_top {lines : List Line} (hends : EndsBefore 1 lines)
    (hlines : ∀ line ∈ lines, ∀ name args, line.token ≠ .directive name args)
    : let entries := buildEntries 0 lines
      let draft := entries.value.foldlM Draft.addEntry triggerDraft
      let header : Header := ⟨id, version, 1⟩
      ofLines (directiveLine "agent" id version 1 :: triggerLine :: lines)
        =
      ⟨completed (some header) draft.value,
        entries.notes ++ (draft.notes ++ triggerNotes (some header) draft.value)⟩ := by
  intro entries draft header
  have hbody : ∀ line ∈ triggerLine :: lines, ∀ name args, line.token ≠ .directive name args :=
    List.forall_mem_cons.mpr ⟨nofun, hlines⟩
  have houtline : outline none (directiveLine "agent" id version 1 :: triggerLine :: lines)
      = ⟨⟨some header, triggerLine :: lines⟩, []⟩ := by
    rw [outline_header rfl, readHeader_directiveLine hid hversion]
    dsimp only [bind]
    rw [outline_eq_pure _ hbody]
    rfl
  have hof := ofLines_eq houtline (buildTree_top hends) (foldlM_top entries.value)
  exact hof

theorem ofLines_head {lines : List Line}
    (hlines : ∀ line ∈ lines, ∀ name args, line.token ≠ .directive name args)
    : let node := buildValue 0 stepsLine none lines
      let more := buildEntries 0 (afterValue 0 none lines)
      let read := readSteps (stepsLabel, node.value)
      let draft := more.value.foldlM Draft.addEntry (stepsDraft read.value)
      let header : Header := ⟨id, version, 1⟩
      ofLines (directiveLine "agent" id version 1 :: triggerLine :: stepsLine :: lines)
        =
      ⟨completed (some header) draft.value,
        node.notes ++ more.notes ++ (read.notes ++ draft.notes ++
          triggerNotes (some header) draft.value)⟩ := by
  intro node more read draft header
  have hentries : buildEntries 0 (stepsLine :: lines)
      = ⟨(stepsLabel, node.value) :: more.value, node.notes ++ more.notes⟩ :=
    buildEntries_cons rfl rfl rfl rfl rfl
  have hends : EndsBefore 1 (stepsLine :: lines) := .cons Nat.one_pos lines
  have hof := ofLines_top hid hversion hends (List.forall_mem_cons.mpr ⟨nofun, hlines⟩)
  rw [hentries] at hof
  dsimp only at hof
  rw [foldlM_stepsLabel] at hof
  exact hof

theorem linesOf_topSourceOf (text : List Char)
    : linesOf (topSourceOf id version text)
        =
      ⟨directiveLine "agent" id version 1 :: triggerLine :: (linesAt 3 text).value,
        (linesAt 3 text).notes⟩ := by
  have hsource : topSourceOf id version text
      = String.ofList ((directiveSource "agent" id version ++ ['\n']) ++ write [triggerRow] ++
        text) := by
    have hfirst : "@agent ".toList = '@' :: "agent".toList ++ [' '] := by
      decide
    have hrow : "\ntrigger: manual\n".toList = '\n' :: write [triggerRow] := by
      decide
    rw [← String.toList_inj]
    unfold topSourceOf directiveSource
    simp only [String.toList_append, String.toList_ofList, hfirst, hrow]
    simp
  have hdirective := readsAs_directive (by decide : isArgument "agent") hid hversion
  have hrow := readsAs_write (by decide : ∀ row ∈ [triggerRow], row.isTidy)
  rw [hsource, linesOf_eq_linesAt, String.toList_ofList, hdirective.append hrow]
  rfl

theorem linesOf_sourceOf (text : List Char)
    : linesOf (sourceOf id version text)
        =
      ⟨directiveLine "agent" id version 1 :: triggerLine :: stepsLine :: (linesAt 4 text).value,
        (linesAt 4 text).notes⟩ := by
  rw [sourceOf_eq_topSourceOf, linesOf_topSourceOf hid hversion, linesAt_stepsRow rfl]

theorem parse_top {text : List Char} {lines : Noted (List Line)} {entries : Noted (List Entry)}
    {draft : Noted Draft} {steps : List Step} (hlines : linesAt 3 text = lines)
    (hplain : ∀ line ∈ lines.value, ∀ name args, line.token ≠ .directive name args)
    (hends : EndsBefore 1 lines.value) (hentries : buildEntries 0 lines.value = entries)
    (hdraft : entries.value.foldlM Draft.addEntry triggerDraft = draft)
    (hagent : draft.value.agent = (stepsDraft steps).agent) (htrigger : draft.value.hasTrigger)
    : let source := topSourceOf id version text
      let agent := { (stepsDraft steps).agent with id, version }
      (Agent.parse source).agent = some agent ∧
      problems source = lines.notes ++ (entries.notes ++ draft.notes) ++ agent.check := by
  intro source agent
  have hsource := linesOf_topSourceOf hid hversion text
  have hof := ofLines_top hid hversion hends hplain
  rw [hentries] at hof
  dsimp only at hof
  rw [hdraft] at hof
  rw [hlines] at hsource
  have hcompleted : completed (some ⟨id, version, 1⟩) draft.value = some agent := by
    unfold completed
    rw [hagent]
    rfl
  have hnotes : triggerNotes (some ⟨id, version, 1⟩) draft.value = [] := by
    unfold triggerNotes
    rw [if_pos htrigger]
  rw [hcompleted, hnotes, List.append_nil] at hof
  unfold problems
  rw [parse_eq hsource, hsource]
  dsimp only
  rw [hof]
  exact ⟨rfl, rfl⟩

/-- A section of steps gives an agent its steps, and the report all that is met on the way. -/
theorem parse_section {text : List Char} {lines : Noted (List Line)} {node : Noted Node}
    {steps : Noted (List Step)} (hlines : linesAt 4 text = lines)
    (hplain : ∀ line ∈ lines.value, ∀ name args, line.token ≠ .directive name args)
    (hvalue : buildValue 0 stepsLine none lines.value = node)
    (hafter : afterValue 0 none lines.value = [])
    (hsteps : readSteps (stepsLabel, node.value) = steps)
    : let source := sourceOf id version text
      let agent := { (stepsDraft steps.value).agent with id, version }
      (Agent.parse source).agent = some agent ∧
      problems source = lines.notes ++ (node.notes ++ steps.notes) ++ agent.check := by
  intro source agent
  have hentries := buildEntries_cons hvalue hafter (buildEntries_nil 0)
    (rfl : stepsLine.indent = 0) rfl
  have hdraft := foldlM_stepsLabel node.value []
  rw [hsteps] at hdraft
  have hends : EndsBefore 1 (stepsLine :: lines.value) := .cons Nat.one_pos lines.value
  obtain ⟨hagent, hproblems⟩ := parse_top hid hversion (linesAt_stepsRow hlines)
    (List.forall_mem_cons.mpr ⟨nofun, hplain⟩) hends hentries hdraft rfl rfl
  rw [← sourceOf_eq_topSourceOf] at hagent hproblems
  refine ⟨hagent, hproblems.trans ?_⟩
  change lines.notes ++ (node.notes ++ [] ++ (steps.notes ++ [])) ++ agent.check = _
  rw [List.append_nil, List.append_nil]

section Source

variable {text : List Char} {count : Nat} {lines : Nat → List Line}
  (hread : ReadsAs text count lines)
include hread

theorem linesOf_sourceOf_of_readsAs
    : linesOf (sourceOf id version text)
        =
      ⟨directiveLine "agent" id version 1 :: triggerLine :: stepsLine :: lines 4, []⟩ := by
  rw [linesOf_sourceOf hid hversion, hread.linesAt]

variable (hlines : ∀ line ∈ lines 4, ∀ name args, line.token ≠ .directive name args)
include hlines

theorem parse_sourceOf {node : Node} {steps : List Step}
    (hvalue : buildValue 0 stepsLine none (lines 4) = ⟨node, []⟩)
    (hafter : afterValue 0 none (lines 4) = [])
    (hsteps : readSteps (stepsLabel, node) = ⟨steps, []⟩) (hnodup : (steps.map Step.id).Nodup)
    : let parsed := Agent.parse (sourceOf id version text)
      parsed.report.errors = [] ∧
      parsed.agent = some { (stepsDraft steps).agent with id, version } := by
  intro parsed
  obtain ⟨hagent, hproblems⟩ := parse_section hid hversion (hread.linesAt 4) hlines hvalue hafter
    hsteps
  refine ⟨?_, hagent⟩
  unfold parsed
  rw [parse_report, Report.sorted_errors_eq_nil_iff, hproblems]
  exact (errorsAmong_check _).mpr hnodup

theorem parse_sourceOf_errors
    (herrors : let node := buildValue 0 stepsLine none (lines 4)
      let more := buildEntries 0 (afterValue 0 none (lines 4))
      errorsAmong more.notes ≠ [] ∨ errorsAmong node.notes ≠ [] ∨
        errorsAmong (readSteps (stepsLabel, node.value)).notes ≠ [])
    : (Agent.parse (sourceOf id version text)).report.errors ≠ [] := by
  have hof := ofLines_head hid hversion hlines
  have hparse := Agent.parse_eq (linesOf_sourceOf_of_readsAs hid hversion hread)
  dsimp only at hparse herrors
  rw [hparse, hof, Ne, Report.sorted_errors_eq_nil_iff]
  simp only [errorsAmong_append, List.append_eq_nil_iff]
  rintro ⟨⟨_, ⟨hnode, hmore⟩, ⟨hsteps, _⟩, _⟩, _⟩
  obtain hsome | hsome | hsome := herrors
  . exact hsome hmore
  . exact hsome hnode
  . exact hsome hsteps

end Source

end Runbook.Agent
