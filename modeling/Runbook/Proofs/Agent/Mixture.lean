import Mathlib.Data.List.TakeWhile
import Runbook.Proofs.Agent.Listing
import Runbook.Proofs.Source.Order

/-!
This module contains agents whose steps are written in two notations, one chosen for each step: as
an item of a list, or as a header with its fields below. Such an agent is read if all of its steps
are written in the same way, and otherwise there are errors.
-/

namespace Runbook.Agent

open Source

/-- A step and how it is written. -/
structure Piece where
  form : StepForm
  spec : StepSpec

namespace Piece

def below (indent : Nat) (spec : StepSpec) : List Row :=
  Document.entryRows (indent + 2) (spec.fields .flat .plain)

/-- A step as it is written with its dash or its header at an indentation. -/
def source (indent : Nat) : Piece → List Char
  | ⟨.list, spec⟩ => write (listed indent .plain [spec])
  | ⟨.flat, spec⟩ =>
    List.replicate indent ' ' ++ stepSource spec.id spec.kind spec.provider ++ ['\n'] ++
      write (below indent spec)

def count (indent : Nat) : Piece → Nat
  | ⟨.list, spec⟩ => (listed indent .plain [spec]).length
  | ⟨.flat, spec⟩ => 1 + (below indent spec).length

def lines (indent number : Nat) : Piece → List Line
  | ⟨.list, spec⟩ => linesFrom number (listed indent .plain [spec])
  | ⟨.flat, spec⟩ =>
    stepLine indent spec.id spec.kind spec.provider number ::
      linesFrom (number + 1) (below indent spec)

/-- What a step has to be like to be read in either notation. -/
def Valid (piece : Piece) : Prop :=
  piece.spec.Valid ∧ ∀ text ∈ piece.spec.texts, isKey text

end Piece

/-- Steps as they are written, one after another. -/
def mixtureSource (indent : Nat) (pieces : List Piece) : List Char :=
  pieces.flatMap (·.source indent)

def mixtureLines (indent number : Nat) : List Piece → List Line
  | [] => []
  | piece :: rest =>
    piece.lines indent number ++ mixtureLines indent (number + piece.count indent) rest

theorem Piece.Valid.writes {piece : Piece} (h : piece.Valid) : piece.spec.Writes .plain := by
  intro text htext
  exact ⟨h.2 text htext, rfl⟩

theorem Piece.readsAs {piece : Piece} (h : piece.Valid) (indent : Nat)
    : ReadsAs (piece.source indent) (piece.count indent) (piece.lines indent ·) := by
  have hword := h.writes
  obtain ⟨form, spec⟩ := piece
  obtain ⟨hvalid, htexts⟩ := h
  cases form with
  | list =>
    have htidy : ∀ other ∈ [spec], other.Valid ∧ other.Writes .plain := by
      rw [List.forall_mem_singleton]
      exact ⟨hvalid, hword⟩
    exact readsAs_write (Document.isTidy_of_mem_itemRows _ (itemsTidy_listed htidy))
  | flat =>
    have hprovider : ∀ name ∈ spec.provider, isKey name := by
      intro name hname
      refine htexts name ?_
      simp [StepSpec.texts, Option.mem_def.mp hname]
    have hheader := readsAs_stepLine (htexts spec.id (by simp [StepSpec.texts]))
      (htexts spec.kind (by simp [StepSpec.texts])) hprovider indent
    have htidy : ∀ row ∈ below indent spec, row.isTidy :=
      Document.isTidy_of_mem_entryRows _ (StepSpec.entriesTidy_fields hvalid hword .flat)
    exact hheader.append (readsAs_write htidy)

theorem readsAs_mixture {pieces : List Piece} (h : ∀ piece ∈ pieces, piece.Valid) (indent : Nat)
    : ∃ count, ReadsAs (mixtureSource indent pieces) count
        fun number => mixtureLines indent number pieces := by
  induction pieces with
  | nil => exact ⟨0, ReadsAs.nil⟩
  | cons piece rest ih =>
    obtain ⟨hpiece, hrest⟩ := List.forall_mem_cons.mp h
    obtain ⟨count, hread⟩ := ih hrest
    exact ⟨_, (Piece.readsAs hpiece indent).append hread⟩

theorem Piece.lines_eq_cons (indent number : Nat) (piece : Piece)
    : ∃ line rest,
        piece.lines indent number = line :: rest ∧
        line.indent = indent ∧
        (piece.form = .flat → line.token =
          .step piece.spec.id (some piece.spec.kind) piece.spec.provider) ∧
        (piece.form = .list → line.token.isItem) := by
  obtain ⟨form, spec⟩ := piece
  cases form with
  | list =>
    obtain ⟨body, below, hrows⟩ :=
      Document.itemRows_eq_cons indent (.map (spec.fields .list .plain)) []
    change ∃ line rest, linesFrom number (Document.itemRows indent [_]) = line :: rest ∧ _
    rw [hrows]
    refine ⟨_, _, rfl, rfl, ?_, fun _ => rfl⟩
    intro h
    cases h
  | flat =>
    refine ⟨_, _, rfl, rfl, fun _ => rfl, ?_⟩
    intro h
    cases h

theorem mixtureLines_eq_cons (indent number : Nat) (piece : Piece) (rest : List Piece)
    : ∃ line later,
        mixtureLines indent number (piece :: rest) = line :: later ∧
        line.indent = indent ∧
        (piece.form = .flat → line.token =
          .step piece.spec.id (some piece.spec.kind) piece.spec.provider) ∧
        (piece.form = .list → line.token.isItem) := by
  obtain ⟨line, more, hlines, hline⟩ := piece.lines_eq_cons indent number
  refine ⟨line, more ++ mixtureLines indent (number + piece.count indent) rest, ?_, hline⟩
  rw [mixtureLines, hlines]
  rfl

theorem Piece.mem_lines {indent number : Nat} {piece : Piece} {line : Line}
    (h : line ∈ piece.lines indent number)
    : indent ≤ line.indent ∧ ∀ name args, line.token ≠ .directive name args := by
  obtain ⟨form, spec⟩ := piece
  cases form with
  | list =>
    refine ⟨?_, noDirective_linesFrom line h⟩
    obtain ⟨row, hrow, hindent, _⟩ := mem_linesFrom h
    rw [hindent]
    cases Document.inList_of_mem_itemRows _ row hrow with
    | inl hdeeper => exact Nat.le_of_lt hdeeper
    | inr hsame => exact Nat.le_of_eq hsame.1.symm
  | flat =>
    cases h with
    | head => exact ⟨Nat.le_refl indent, fun _ _ => Token.noConfusion⟩
    | tail _ hbelow =>
      refine ⟨?_, noDirective_linesFrom line hbelow⟩
      obtain ⟨row, hrow, hindent, _⟩ := mem_linesFrom hbelow
      have := Document.le_indent_of_mem_entryRows _ row hrow
      omega

theorem mem_mixtureLines {indent number : Nat} {pieces : List Piece} {line : Line}
    (h : line ∈ mixtureLines indent number pieces)
    : indent ≤ line.indent ∧ ∀ name args, line.token ≠ .directive name args := by
  induction pieces generalizing number with
  | nil => cases h
  | cons piece rest ih =>
    rw [mixtureLines, List.mem_append] at h
    cases h with
    | inl hpiece => exact Piece.mem_lines hpiece
    | inr hrest => exact ih hrest

theorem noDirective_mixtureLines (indent number : Nat) (pieces : List Piece)
    : ∀ line ∈ mixtureLines indent number pieces, ∀ name args, line.token ≠ .directive name args := by
  intro line hline
  exact (mem_mixtureLines hline).2

theorem endsBefore_mixtureLines (indent number : Nat) (pieces : List Piece)
    : EndsBefore (indent + 1) (mixtureLines indent number pieces) := by
  cases pieces with
  | nil => exact .nil _
  | cons piece rest =>
    obtain ⟨first, later, hlines, hindent, _⟩ := mixtureLines_eq_cons indent number piece rest
    rw [hlines]
    exact .cons (by omega) _

theorem mixtureLines_list (indent number : Nat) {pieces : List Piece}
    (h : ∀ piece ∈ pieces, piece.form = .list)
    : mixtureLines indent number pieces
        =
      linesFrom number (listed indent .plain (pieces.map Piece.spec)) := by
  induction pieces generalizing number with
  | nil => rfl
  | cons piece rest ih =>
    obtain ⟨form, spec⟩ := piece
    obtain ⟨hform, hrest⟩ := List.forall_mem_cons.mp h
    cases hform
    have hlisted : listed indent .plain (spec :: rest.map Piece.spec)
        = listed indent .plain [spec] ++ listed indent .plain (rest.map Piece.spec) :=
      Document.itemRows_cons indent _ _
    rw [List.map_cons, hlisted, linesFrom_append, ← ih _ hrest]
    rfl

section Flat

def flatNode (indent number : Nat) (fields : List (Atom × Document)) : Node :=
  match fields with
  | [] => .empty
  | _ :: _ => .map (Document.entryNodes (indent + 2) (number + 1) fields)

def flatEntry (indent number : Nat) (spec : StepSpec) : Entry :=
  ({ key := spec.id, line := number, column := indent + 1, head := some ⟨spec.kind, spec.provider⟩ },
    flatNode indent number (spec.fields .flat .plain))

variable (indent number : Nat) {spec : StepSpec} (h : spec.Valid) (hword : spec.Writes .plain)
  {later : List Line}
include h hword

theorem readFlatStep_flatEntry
    : readFlatStep (flatEntry indent number spec)
        =
      pure (some { spec.step .flat with line := number }) := by
  have hstep := StepSpec.readStep_fields (indent + 2) (number + 1) h hword .flat number (indent + 1)
  unfold flatEntry
  generalize spec.fields .flat .plain = fields at hstep
  cases fields with
  | nil => exact hstep
  | cons field rest => exact hstep

theorem buildEntries_flat (hlater : EndsBefore (indent + 1) later)
    (hstarts : spec.fields .flat .plain = [] → startsBlock indent later = false)
    : buildEntries indent (Piece.lines indent number ⟨.flat, spec⟩ ++ later)
        =
      ⟨flatEntry indent number spec :: (buildEntries indent later).value,
        (buildEntries indent later).notes⟩ := by
  have htidy := StepSpec.entriesTidy_fields h hword .flat
  have hbuilt :
      buildValue indent (stepLine indent spec.id spec.kind spec.provider number) none
          (linesFrom (number + 1) (Piece.below indent spec) ++ later)
        =
      ⟨flatNode indent number (spec.fields .flat .plain), []⟩ ∧
      afterValue indent none (linesFrom (number + 1) (Piece.below indent spec) ++ later) = later := by
    unfold Piece.below
    generalize spec.fields .flat .plain = fields at htidy hstarts
    cases fields with
    | nil =>
      have hnone : ¬ startsBlock indent later := by
        simp [hstarts rfl]
      unfold buildValue afterValue
      exact ⟨if_neg hnone, if_neg hnone⟩
    | cons field rest =>
      have hmap := Document.isTidy_map.mpr ⟨List.cons_ne_nil field rest, htidy⟩
      exact Document.buildValue_rows hmap (Document.buildBlock_rows (indent + 2) (number + 1) _ hmap)
        (by omega) hlater _
  exact buildEntries_step hbuilt.1 hbuilt.2 rfl rfl rfl

end Flat

theorem startsBlock_mixtureLines {pieces : List Piece}
    (h : ∀ piece ∈ pieces.head?, piece.form = .flat) (indent number : Nat)
    : startsBlock indent (mixtureLines indent number pieces) = false := by
  cases pieces with
  | nil => rfl
  | cons piece rest =>
    obtain ⟨first, later, hlines, hindent, hflat, _⟩ := mixtureLines_eq_cons indent number piece rest
    rw [hlines]
    unfold startsBlock inList
    simp [hindent, hflat (h piece rfl), Token.isItem]

theorem mapAll_flat (indent number : Nat) {pieces : List Piece} (h : ∀ piece ∈ pieces, piece.Valid)
    (hflat : ∀ piece ∈ pieces, piece.form = .flat)
    : ∃ entries, ∃ steps : List Step,
        buildEntries indent (mixtureLines indent number pieces) = ⟨entries, []⟩ ∧
        Noted.mapAll readFlatStep entries = pure (steps.map some) ∧
        steps.map Step.unplaced = pieces.map fun piece => piece.spec.step piece.form := by
  induction pieces generalizing number with
  | nil =>
    refine ⟨[], [], ?_, rfl, rfl⟩
    unfold mixtureLines buildEntries
    rfl
  | cons piece rest ih =>
    obtain ⟨form, spec⟩ := piece
    obtain ⟨hpiece, hrest⟩ := List.forall_mem_cons.mp h
    obtain ⟨hform, hforms⟩ := List.forall_mem_cons.mp hflat
    cases hform
    have hword := Piece.Valid.writes hpiece
    have hnext : ∀ piece ∈ rest.head?, piece.form = .flat := by
      intro piece hfirst
      exact hforms piece (List.mem_of_mem_head? hfirst)
    obtain ⟨entries, steps, hentries, hsteps, hspecs⟩ :=
      ih (number + Piece.count indent ⟨.flat, spec⟩) hrest hforms
    have hbuilt := buildEntries_flat indent number hpiece.1 hword
      (endsBefore_mixtureLines indent (number + Piece.count indent ⟨.flat, spec⟩) rest)
      fun _ => startsBlock_mixtureLines hnext indent _
    rw [hentries] at hbuilt
    refine ⟨flatEntry indent number spec :: entries, { spec.step .flat with line := number } :: steps,
      hbuilt, ?_, ?_⟩
    . exact Noted.mapAll_cons (readFlatStep_flatEntry indent number hpiece.1 hword) hsteps
    . rw [List.map_cons, List.map_cons, hspecs]
      rfl

theorem buildValue_mixtureLines {indent : Nat} (hindent : 0 < indent) (number : Nat) {piece : Piece}
    (hform : piece.form = .flat) (rest : List Piece)
    : let lines := mixtureLines indent number (piece :: rest)
      let entries := buildEntries indent lines
      buildValue 0 stepsLine none lines = ⟨.map entries.value, entries.notes⟩ ∧
      afterValue 0 none lines = [] := by
  intro lines entries
  obtain ⟨first, later, hcons, hfirst, hflat, _⟩ := mixtureLines_eq_cons indent number piece rest
  change lines = first :: later at hcons
  have hitem : first.token.isItem = false := by
    rw [hflat hform]
    rfl
  have hall : ∀ line ∈ first :: later, first.indent ≤ line.indent := by
    intro line hline
    rw [← hcons] at hline
    rw [hfirst]
    exact (mem_mixtureLines hline).1
  have hbuilt := buildValue_entries stepsLine (by omega : 0 < first.indent) hitem hall
  rw [← hcons, hfirst] at hbuilt
  exact hbuilt

theorem buildEntries_item {indent : Nat} {line : Line} (hindent : line.indent = indent)
    (hitem : line.token.isItem) (rest : List Line)
    : errorsAmong (buildEntries indent (line :: rest)).notes ≠ [] := by
  obtain ⟨column, body, htoken⟩ := eq_item_of_isItem hitem
  unfold buildEntries
  rw [if_neg (by omega), htoken]
  simp [Line.strayItem]

theorem buildValue_item {indent : Nat} {line : Line} (hindent : line.indent = indent)
    (hitem : line.token.isItem) (rest : List Line) (owner : Line)
    : ∃ items, (buildValue indent owner none (line :: rest)).value = .list items := by
  have hstarts : startsBlock indent (line :: rest) = true := by
    unfold startsBlock inList
    simp [hindent, hitem]
  have hblock : block (line :: rest) = line :: rest.takeWhile (inList line.indent) := by
    have hin : inList line.indent line := by
      unfold inList
      simp [hitem]
    unfold block
    dsimp only
    rw [if_pos hitem, List.takeWhile_cons_of_pos hin]
  unfold buildValue
  rw [if_pos hstarts, hblock]
  unfold buildBlock
  rw [if_pos hitem]
  exact ⟨_, rfl⟩

theorem switch_to_list (indent number : Nat) {first : StepSpec} {rest : List Piece}
    (hfirst : Piece.Valid ⟨.flat, first⟩) (h : ∀ piece ∈ rest, piece.Valid)
    (hlist : ∃ piece ∈ rest, piece.form = .list)
    : let entries := buildEntries indent (mixtureLines indent number (⟨.flat, first⟩ :: rest))
      errorsAmong entries.notes ≠ [] ∨
        ∃ entry ∈ entries.value, errorsAmong (readFlatStep entry).notes ≠ [] := by
  dsimp only
  -- induction over the flat steps above the first item of the list
  induction rest generalizing first number with
  | nil =>
    obtain ⟨piece, hmem, _⟩ := hlist
    cases hmem
  | cons second more ih =>
    obtain ⟨form, spec⟩ := second
    obtain ⟨hsecond, hmore⟩ := List.forall_mem_cons.mp h
    have hends := endsBefore_mixtureLines indent (number + Piece.count indent ⟨.flat, first⟩)
      (⟨form, spec⟩ :: more)
    have hbuilt := buildEntries_flat indent number hfirst.1 (Piece.Valid.writes hfirst) hends
    rw [mixtureLines]
    cases form with
    | flat =>
      have hlater : ∃ piece ∈ more, piece.form = .list := by
        obtain ⟨piece, hmem, hform⟩ := hlist
        cases hmem with
        | head => cases hform
        | tail _ hmem => exact ⟨piece, hmem, hform⟩
      rw [hbuilt fun _ => startsBlock_mixtureLines (by simp) indent _]
      cases ih (number + Piece.count indent ⟨.flat, first⟩) hsecond hmore hlater with
      | inl hnotes => exact .inl hnotes
      | inr hentry =>
        obtain ⟨entry, hmem, herrors⟩ := hentry
        exact .inr ⟨entry, List.mem_cons_of_mem _ hmem, herrors⟩
    | list =>
      obtain ⟨line, later, hlines, hindent, _, hitem⟩ := mixtureLines_eq_cons indent
        (number + Piece.count indent ⟨.flat, first⟩) ⟨.list, spec⟩ more
      rw [hlines] at hbuilt ⊢
      by_cases hfields : first.fields .flat .plain = []
      . -- the header takes the list for its fields
        have hbelow : Piece.below indent first = [] := by
          unfold Piece.below
          rw [hfields]
          rfl
        have hheader : Piece.lines indent number ⟨.flat, first⟩
            = [stepLine indent first.id first.kind first.provider number] := by
          change _ :: linesFrom (number + 1) (Piece.below indent first) = _
          rw [hbelow]
          rfl
        obtain ⟨items, hvalue⟩ := buildValue_item hindent (hitem rfl) later
          (stepLine indent first.id first.kind first.provider number)
        rw [hheader, List.singleton_append,
          buildEntries_step (rfl : buildValue indent _ none _ = _) rfl rfl rfl rfl]
        refine .inr ⟨_, List.mem_cons_self .., ?_⟩
        rw [hvalue]
        unfold readFlatStep errorAt
        simp
      . -- the fields below the header end before the list, and the list is left in the map
        rw [hbuilt fun hempty => absurd hempty hfields]
        exact .inl (buildEntries_item hindent (hitem rfl) _)

theorem errorsAmong_mapAll {α β : Type} {f : α → Noted β} {x : α} {xs : List α} (hmem : x ∈ xs)
    (h : errorsAmong (f x).notes ≠ [])
    : errorsAmong (Noted.mapAll f xs).notes ≠ [] := by
  obtain ⟨before, after, rfl⟩ := List.append_of_mem hmem
  unfold Noted.mapAll
  simp [h]

theorem exists_not_inList (indent number : Nat) {pieces : List Piece}
    (h : ∃ piece ∈ pieces, piece.form = .flat)
    : ∃ line ∈ mixtureLines indent number pieces, inList indent line = false := by
  induction pieces generalizing number with
  | nil =>
    obtain ⟨piece, hmem, _⟩ := h
    cases hmem
  | cons piece rest ih =>
    obtain ⟨other, hmem, hform⟩ := h
    cases hmem with
    | head =>
      obtain ⟨line, later, hlines, hindent, hflat, _⟩ := mixtureLines_eq_cons indent number piece rest
      rw [hlines]
      refine ⟨line, List.mem_cons_self .., ?_⟩
      unfold inList
      simp [hindent, hflat hform, Token.isItem]
    | tail _ hmem =>
      obtain ⟨line, hline, hout⟩ := ih (number + piece.count indent) ⟨other, hmem, hform⟩
      exact ⟨line, List.mem_append_right _ hline, hout⟩

theorem switch_to_flat {indent : Nat} (hindent : 0 < indent) (number : Nat) {first : Piece}
    {rest : List Piece} (hfirst : first.form = .list) (hflat : ∃ piece ∈ rest, piece.form = .flat)
    : errorsAmong
          (buildEntries 0 (afterValue 0 none (mixtureLines indent number (first :: rest)))).notes
        ≠
      [] := by
  obtain ⟨other, hother, hform⟩ := hflat
  obtain ⟨header, hmem, hout⟩ :=
    exists_not_inList indent number ⟨other, List.mem_cons_of_mem first hother, hform⟩
  obtain ⟨line, later, hcons, hline, _, hitem⟩ := mixtureLines_eq_cons indent number first rest
  have hdeep : ∀ line ∈ mixtureLines indent number (first :: rest), 0 < line.indent := by
    intro line hline
    exact Nat.lt_of_lt_of_le hindent (mem_mixtureLines hline).1
  generalize mixtureLines indent number (first :: rest) = lines at *
  have hafter : afterValue 0 none lines = lines.dropWhile (inList indent) := by
    have hstarts : startsBlock 0 (line :: later) = true := by
      unfold startsBlock inList
      simp [hline, hindent]
    rw [hcons]
    unfold afterValue afterBlock
    dsimp only
    rw [if_pos hstarts, if_pos (hitem hfirst), hline]
  rw [hafter]
  -- the header is no line of the list, so that something is left
  cases hdrop : lines.dropWhile (inList indent) with
  | nil =>
    rw [List.dropWhile_eq_nil_iff] at hdrop
    rw [hdrop header hmem] at hout
    cases hout
  | cons left others =>
    have hleft : 0 < left.indent := by
      apply hdeep
      apply (List.dropWhile_suffix (inList indent)).subset
      rw [hdrop]
      exact List.mem_cons_self ..
    unfold buildEntries
    rw [if_pos hleft]
    simp [Line.unexpected]

theorem readSteps_mixture {indent : Nat} (hindent : 0 < indent) {pieces : List Piece}
    (h : ∀ piece ∈ pieces, piece.Valid) {form : StepForm}
    (hform : ∀ piece ∈ pieces, piece.form = form)
    : let lines := mixtureLines indent 4 pieces
      ∃ node steps,
        buildValue 0 stepsLine none lines = ⟨node, []⟩ ∧
        afterValue 0 none lines = [] ∧
        readSteps (stepsLabel, node) = ⟨steps, []⟩ ∧
        steps.map Step.unplaced = pieces.map fun piece => piece.spec.step piece.form := by
  dsimp only
  cases form with
  | list =>
    have hspecs : ∀ spec ∈ pieces.map Piece.spec, spec.Valid ∧ spec.Writes .plain := by
      rw [List.forall_mem_map]
      intro piece hpiece
      exact ⟨(h piece hpiece).1, (h piece hpiece).writes⟩
    obtain ⟨node, steps, hvalue, hafter, hsteps, hunplaced⟩ := readSteps_listed indent hspecs
    rw [mixtureLines_list indent 4 hform]
    refine ⟨node, steps, hvalue, hafter, hsteps, ?_⟩
    rw [hunplaced, List.map_map, List.map_inj_left]
    intro piece hpiece
    rw [hform piece hpiece]
    rfl
  | flat =>
    cases pieces with
    | nil =>
      refine ⟨.empty, [], ?_, rfl, rfl, rfl⟩
      unfold mixtureLines buildValue
      rfl
    | cons piece rest =>
      obtain ⟨entries, steps, hentries, hsteps, hunplaced⟩ := mapAll_flat indent 4 h hform
      obtain ⟨hvalue, hafter⟩ := buildValue_mixtureLines hindent 4
        (hform piece (List.mem_cons_self ..)) rest
      rw [hentries] at hvalue
      exact ⟨.map entries, steps, hvalue, hafter, filterMap_mapAll hsteps, hunplaced⟩

theorem errors_mixture {indent : Nat} (hindent : 0 < indent) {pieces : List Piece}
    (h : ∀ piece ∈ pieces, piece.Valid) (hmixed : ¬ ∃ form, ∀ piece ∈ pieces, piece.form = form)
    : let lines := mixtureLines indent 4 pieces
      let node := buildValue 0 stepsLine none lines
      let more := buildEntries 0 (afterValue 0 none lines)
      errorsAmong more.notes ≠ [] ∨ errorsAmong node.notes ≠ [] ∨
        errorsAmong (readSteps (stepsLabel, node.value)).notes ≠ [] := by
  dsimp only
  cases pieces with
  | nil =>
    exfalso
    apply hmixed
    refine ⟨.list, ?_⟩
    intro piece hpiece
    cases hpiece
  | cons first rest =>
    -- the first step decides what the section is, and some step after it is written otherwise
    have hother : ∃ piece ∈ rest, piece.form ≠ first.form := by
      by_contra hsame
      apply hmixed
      refine ⟨first.form, ?_⟩
      rw [List.forall_mem_cons]
      refine ⟨rfl, ?_⟩
      intro piece hpiece
      by_contra hne
      exact hsame ⟨piece, hpiece, hne⟩
    obtain ⟨other, hmem, hne⟩ := hother
    cases hform : first.form with
    | list =>
      have hflat : other.form = .flat := by
        cases hother : other.form with
        | flat => rfl
        | list => exact absurd (hother.trans hform.symm) hne
      exact .inl (switch_to_flat hindent 4 hform ⟨other, hmem, hflat⟩)
    | flat =>
      have hlist : other.form = .list := by
        cases hother : other.form with
        | list => rfl
        | flat => exact absurd (hother.trans hform.symm) hne
      obtain ⟨hfirst, hrest⟩ := List.forall_mem_cons.mp h
      obtain ⟨form, spec⟩ := first
      cases hform
      have hform : Piece.form ⟨.flat, spec⟩ = .flat := rfl
      obtain ⟨hvalue, _⟩ := buildValue_mixtureLines hindent 4 hform rest
      rw [hvalue]
      refine .inr ?_
      cases switch_to_list indent 4 hfirst hrest ⟨other, hmem, hlist⟩ with
      | inl hnotes => exact .inl hnotes
      | inr hentry =>
        obtain ⟨entry, hentry, herrors⟩ := hentry
        refine .inr ?_
        unfold readSteps
        dsimp only
        rw [Noted.bind_notes, errorsAmong_append]
        intro hnil
        exact errorsAmong_mapAll hentry herrors (List.append_eq_nil_iff.mp hnil).1

section Parse

variable {id version : String} (hid : isArgument id) (hversion : isArgument version)
  {pieces : List Piece} (h : ∀ piece ∈ pieces, piece.Valid) {indent : Nat} (hindent : 0 < indent)
include hid hversion h hindent

theorem parse_mixed (hmixed : ¬ ∃ form, ∀ piece ∈ pieces, piece.form = form)
    : (Agent.parse (sourceOf id version (mixtureSource indent pieces))).report.errors ≠ [] := by
  obtain ⟨count, hread⟩ := readsAs_mixture h indent
  have hlines := noDirective_mixtureLines indent 4 pieces
  exact parse_sourceOf_errors hid hversion hread hlines (errors_mixture hindent h hmixed)

theorem parse_uniform (hnodup : (pieces.map (·.spec.id)).Nodup) {form : StepForm}
    (hform : ∀ piece ∈ pieces, piece.form = form)
    : let parsed := Agent.parse (sourceOf id version (mixtureSource indent pieces))
      parsed.report.errors = [] ∧
      ∃ agent,
        parsed.agent = some agent ∧
        agent.steps.map Step.unplaced = pieces.map fun piece => piece.spec.step piece.form := by
  dsimp only
  obtain ⟨count, hread⟩ := readsAs_mixture h indent
  have hlines := noDirective_mixtureLines indent 4 pieces
  obtain ⟨node, steps, hvalue, hafter, hsteps, hunplaced⟩ := readSteps_mixture hindent h hform
  have hids : (steps.map Step.id).Nodup := by
    rw [map_id_of_unplaced hunplaced, List.map_map]
    exact hnodup
  obtain ⟨herrors, hagent⟩ := parse_sourceOf hid hversion hread hlines hvalue hafter hsteps hids
  exact ⟨herrors, _, hagent, hunplaced⟩

end Parse

/--
Steps below their section are read without an error if and only if all of them are written in the
same notation, and then the agent has all of them in their order.
-/
theorem parse_mixture {id version : String} (hid : isArgument id) (hversion : isArgument version)
    {pieces : List Piece} (h : ∀ piece ∈ pieces, piece.Valid)
    (hnodup : (pieces.map (·.spec.id)).Nodup) {indent : Nat} (hindent : 0 < indent)
    : let parsed := Agent.parse (sourceOf id version (mixtureSource indent pieces))
      (parsed.report.errors = [] ↔ ∃ form, ∀ piece ∈ pieces, piece.form = form) ∧
      (parsed.report.errors = [] →
        ∃ agent,
          parsed.agent = some agent ∧
          agent.steps.map Step.unplaced = pieces.map fun piece => piece.spec.step piece.form) := by
  dsimp only
  by_cases huniform : ∃ form, ∀ piece ∈ pieces, piece.form = form
  . obtain ⟨form, hform⟩ := huniform
    obtain ⟨hnone, hsteps⟩ := parse_uniform hid hversion h hindent hnodup hform
    exact ⟨iff_of_true hnone ⟨form, hform⟩, fun _ => hsteps⟩
  . have hsome := parse_mixed hid hversion h hindent huniform
    exact ⟨iff_of_false hsome huniform, fun hnone => absurd hnone hsome⟩

def flatPieces : List Piece :=
  [⟨.flat, {
      id := "classify"
      kind := "llm"
      provider := some "openai"
      config := [("prompt", .str "Classify: \x7bname\x7d")]
      save := some "label" }⟩,
    ⟨.flat, { id := "respond", kind := "llm", provider := some "openai" }⟩]

theorem parse_mixture_flatPieces
    : let source := String.intercalate "\n"
        ["@agent hello v1",
          "trigger: manual",
          "steps:",
          "  step classify: llm openai",
          "    save: \"label\"",
          "    \"prompt\": \"Classify: \x7bname\x7d\"",
          "  step respond: llm openai",
          ""]
      sourceOf "hello" "v1" (mixtureSource 2 flatPieces) = source ∧
      (Agent.parse source).report.errors = [] ∧
      ∃ agent,
        (Agent.parse source).agent = some agent ∧
        agent.steps.map Step.unplaced = flatPieces.map fun piece => piece.spec.step piece.form := by
  intro source
  have hsource : sourceOf "hello" "v1" (mixtureSource 2 flatPieces) = source := by
    decide +kernel
  have hvalid : ∀ piece ∈ flatPieces, piece.Valid := by
    unfold flatPieces
    rw [List.forall_mem_cons, List.forall_mem_singleton]
    constructor
    . refine ⟨?_, by decide⟩
      constructor <;> decide
    . refine ⟨?_, by decide⟩
      constructor <;> decide
  obtain ⟨hiff, hsteps⟩ := parse_mixture (by decide : isArgument "hello") (by decide : isArgument "v1")
    hvalid (by decide) (by decide : 0 < 2)
  rw [hsource] at hiff hsteps
  have hnone := hiff.mpr ⟨.flat, by decide⟩
  exact ⟨hsource, hnone, hsteps hnone⟩

/-- The second step under a header after the first as an item is not read. -/
theorem not_parse_mixed
    : let source := String.intercalate "\n"
        ["@agent hello v1",
          "trigger: manual",
          "steps:",
          "  - id: classify",
          "    kind: llm",
          "    provider: openai",
          "    prompt: \"Classify: \x7bname\x7d\"",
          "  step respond: llm openai",
          "    prompt: \"Hi \x7bname\x7d\"",
          ""]
      (Agent.parse source).report.errors ≠ [] ∧
      (Agent.parse source).agent.map (fun agent => agent.steps.map Step.id) = some ["classify"] := by
  decide +kernel

end Runbook.Agent
