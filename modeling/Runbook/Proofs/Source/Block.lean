import Mathlib.Data.List.DropRight
import Runbook.Proofs.Source.Row

/-!
This module contains blocks as they are written below an entry, and the reason why they are read as
the lines that were written, whatever stands in these lines.
-/

namespace Runbook.Source

open Text

/-- Lines that a block can carry as they are. -/
structure IsVerbatim (body : RawLines) : Prop where
  raw : ∀ line ∈ body, IsRawLine line
  /-- Blank lines at the end are not kept. -/
  last : ∃ line ∈ body.getLast?, allBlank line = false
  /-- What all lines are indented by is no part of them. -/
  flush : ∃ line ∈ body, ∃ c ∈ line.head?, isBlank c = false

/-- The mark of a block that keeps the end of its last line, or of one that does not. -/
def blockMark (keepEnd : Bool) : List Char :=
  if keepEnd then ['|'] else ['|', '-']

def blockHeader (indent : Nat) (key : Atom) (keepEnd : Bool) : List Char :=
  indented indent (key.source ++ ':' :: ' ' :: blockMark keepEnd)

/-- An entry with a block below it, indented by `deeper` more than the entry. -/
def blockSource (indent deeper : Nat) (key : Atom) (keepEnd : Bool) (body : RawLines) : List Char :=
  ['\n'].intercalate (blockHeader indent key keepEnd :: body.map (indented (indent + deeper)))

def carriedText (keepEnd : Bool) (body : RawLines) : List Char :=
  ['\n'].intercalate body ++ if keepEnd then ['\n'] else []

@[simp]
theorem allBlank_indented (columns : Nat) (line : List Char)
    : allBlank (indented columns line) = allBlank line := by
  unfold allBlank indented
  rw [List.all_append, List.all_eq_true.mpr isBlank_of_mem_replicate, Bool.true_and]

@[simp]
theorem leadingBlanks_indented (columns : Nat) (line : List Char)
    : leadingBlanks (indented columns line) = columns + leadingBlanks line := by
  unfold leadingBlanks indented
  rw [List.takeWhile_append_of_pos isBlank_of_mem_replicate, List.length_append,
    List.length_replicate]

theorem drop_indented (columns : Nat) (line : List Char)
    : (indented columns line).drop columns = line := by
  unfold indented
  exact List.drop_left' List.length_replicate

theorem inBlock_indented {indent deeper : Nat} (h : 1 ≤ deeper) (line : List Char)
    : inBlock indent (indented (indent + deeper) line) := by
  unfold inBlock
  rw [leadingBlanks_indented, Bool.or_eq_true, decide_eq_true_eq]
  omega

theorem IsRawLine.indented {line : List Char} (h : IsRawLine line) (columns : Nat)
    : IsRawLine (indented columns line) where
  unbroken hmem := by
    unfold Source.indented at hmem
    rw [List.mem_append] at hmem
    cases hmem with
    | inl hspace => exact absurd (List.eq_of_mem_replicate hspace) (by decide)
    | inr hline => exact h.unbroken hline
  kept hlast := by
    unfold Source.indented at hlast
    rw [List.getLast?_append] at hlast
    cases hline : line.getLast? with
    | none =>
      rw [hline, Option.none_or] at hlast
      exact absurd (List.eq_of_mem_replicate (List.mem_of_getLast? hlast)) (by decide)
    | some c =>
      rw [hline, Option.some_or] at hlast
      exact h.kept (hline.trans hlast)

theorem commonIndent_indented {body : RawLines} (columns : Nat)
    (h : ∃ line ∈ body, ∃ c ∈ line.head?, isBlank c = false)
    : commonIndent (body.map (indented columns)) = columns := by
  obtain ⟨line, hline, c, hhead, hc⟩ := h
  obtain ⟨rest, rfl⟩ := List.head?_eq_some_iff.mp hhead
  have hmin : (((body.map (indented columns)).filter (!allBlank ·)).map leadingBlanks).min?
      = some columns := by
    rw [List.min?_eq_some_iff]
    constructor
    . refine List.mem_map.mpr ⟨indented columns (c :: rest), ?_, ?_⟩
      . rw [List.mem_filter, allBlank_indented]
        refine ⟨List.mem_map_of_mem hline, ?_⟩
        simp [allBlank, hc]
      . rw [leadingBlanks_indented]
        simp [leadingBlanks, hc]
    . simp only [List.forall_mem_map, List.mem_filter, and_imp]
      intro other _ _
      rw [leadingBlanks_indented]
      exact Nat.le_add_right columns _
  unfold commonIndent
  rw [hmin]
  rfl

theorem IsVerbatim.intercalate_ne_nil {body : RawLines} (h : IsVerbatim body)
    : ['\n'].intercalate body ≠ [] := by
  obtain ⟨line, hline, c, hc, _⟩ := h.flush
  cases body with
  | nil => cases hline
  | cons first rest =>
    cases rest with
    | nil =>
      rw [List.mem_singleton.mp hline] at hc
      rw [List.intercalate_singleton]
      rintro rfl
      cases hc
    | cons second rest => simp [List.intercalate_cons_cons]

section Body

variable {indent deeper : Nat} (hdeeper : 1 ≤ deeper) {body : RawLines} {below : RawLines}
  (hbelow : ∀ line ∈ below.head?, inBlock indent line = false)

include hdeeper hbelow

theorem takeWhile_indented
    : (body.map (indented (indent + deeper)) ++ below).takeWhile (inBlock indent)
        =
      body.map (indented (indent + deeper)) := by
  have hall : ∀ line ∈ body.map (indented (indent + deeper)), inBlock indent line := by
    rw [List.forall_mem_map]
    intro line _
    exact inBlock_indented hdeeper line
  rw [List.takeWhile_append_of_pos hall]
  cases below with
  | nil => rw [List.takeWhile_nil, List.append_nil]
  | cons line rest =>
    rw [List.takeWhile_cons_of_neg (by simp [hbelow line rfl]), List.append_nil]

theorem blockText_indented (h : IsVerbatim body) (keepEnd : Bool)
    : blockText keepEnd indent (body.map (indented (indent + deeper)) ++ below)
        =
      carriedText keepEnd body := by
  have hbody : blockBody indent (body.map (indented (indent + deeper)) ++ below)
      = body.map (indented (indent + deeper)) := by
    unfold blockBody
    rw [takeWhile_indented hdeeper hbelow]
    obtain ⟨last, hlast, hblank⟩ := h.last
    have hend : (body.map (indented (indent + deeper))).getLast?
        = some (indented (indent + deeper) last) := by
      rw [List.getLast?_map, hlast]
      rfl
    apply List.rdropWhile_eq_self_iff.mpr
    intro hne
    rw [Option.some.inj ((List.getLast?_eq_some_getLast hne).symm.trans hend), allBlank_indented,
      hblank]
    exact Bool.false_ne_true
  have hdrop : (body.map (indented (indent + deeper))).map (·.drop (indent + deeper)) = body := by
    rw [List.map_map]
    conv => rhs; rw [← List.map_id body]
    exact List.map_congr_left fun line _ => drop_indented _ line
  unfold blockText carriedText
  dsimp only
  rw [hbody, commonIndent_indented _ h.flush, hdrop]
  have hne := List.isEmpty_eq_false_iff.mpr h.intercalate_ne_nil
  rw [hne]
  cases keepEnd <;> simp

end Body

theorem rawLinesOf_intercalate {line : List Char} {lines : RawLines}
    (h : ∀ other ∈ line :: lines, IsRawLine other) {tail : List Char} {more : RawLines}
    (hlast : ∀ last ∈ (line :: lines).getLast?, rawLinesOf (last ++ tail) = last :: more)
    : rawLinesOf (['\n'].intercalate (line :: lines) ++ tail) = line :: lines ++ more := by
  induction lines generalizing line with
  | nil =>
    rw [List.intercalate_singleton]
    exact hlast line rfl
  | cons next lines ih =>
    obtain ⟨hline, hlines⟩ := List.forall_mem_cons.mp h
    rw [List.intercalate_cons_cons, List.append_assoc, List.append_assoc, List.singleton_append,
      hline.rawLinesOf_append, ih hlines hlast]
    rfl

section Header

variable {key : Atom} (hkey : key.isTidy) (hname : key.text ≠ "") (indent : Nat) (keepEnd : Bool)

include hkey in
theorem isRawLine_blockHeader : IsRawLine (blockHeader indent key keepEnd) := by
  unfold blockHeader
  apply IsRawLine.indented
  apply isRawLine_of_staysOnLine
  intro c hc
  rw [List.mem_append] at hc
  cases hc with
  | inl hsource => exact Atom.staysOnLine_source hkey c hsource
  | inr hmark =>
    have hall : (':' :: ' ' :: blockMark keepEnd).all staysOnLine := by
      cases keepEnd <;> rfl
    exact List.all_eq_true.mp hall c hmark

include hkey hname in
theorem readLine_blockHeader (number : Nat) (following : RawLines)
    : readLine number (blockHeader indent key keepEnd) following
        =
      ⟨⟨some ⟨number, indent,
            .entry key.text (some (.block (String.ofList (blockText keepEnd indent following)))),
            String.ofList (blockHeader indent key keepEnd)⟩,
          (following.takeWhile (inBlock indent)).length⟩, []⟩ := by
  have hslot : slot? (blockHeader indent key keepEnd)
      = some ⟨indent, [' '], blockMark keepEnd, fun value => .entry key.text (some value)⟩ := by
    apply slot?_keySource hkey hname indent
    . cases keepEnd <;> rintro _ ⟨⟩ <;> rfl
    . cases keepEnd <;> rfl
  have hleading : leading (blockHeader indent key keepEnd) = List.replicate indent ' ' :=
    leading_indented (not_isBlank_keySource hkey _) indent
  have hindent : leadingBlanks (blockHeader indent key keepEnd) = indent :=
    (congrArg List.length hleading).trans List.length_replicate
  have hvalue (site : Site) (column : Nat)
      : readValue site following (blockMark keepEnd) column indent
          =
        ⟨⟨.block (String.ofList (blockText keepEnd indent following)),
          (following.takeWhile (inBlock indent)).length⟩, []⟩ := by
    cases keepEnd <;> rfl
  rw [readLine_of_slot? hslot, hvalue, hleading, hindent, tabNotes_replicate]
  rfl

end Header

/-- The line that opens a block with the given lines. -/
def blockLine (indent : Nat) (key : Atom) (keepEnd : Bool) (body : RawLines) (number : Nat) : Line :=
  ⟨number, indent, .entry key.text (some (.block (String.ofList (carriedText keepEnd body)))),
    String.ofList (blockHeader indent key keepEnd)⟩

theorem readLines_skip (number : Nat) (body below : RawLines)
    : readLines.go number body.length (body ++ below)
        =
      readLines.go (number + body.length) 0 below := by
  induction body generalizing number with
  | nil => rfl
  | cons line rest ih =>
    rw [List.cons_append, List.length_cons, readLines.go, ih]
    congr 1
    omega

theorem readLines_block {indent deeper : Nat} (hdeeper : 1 ≤ deeper) {key : Atom}
    (hkey : key.isTidy) (hname : key.text ≠ "") {body : RawLines} (hbody : IsVerbatim body)
    {below : RawLines} (hbelow : ∀ line ∈ below.head?, inBlock indent line = false)
    (keepEnd : Bool) (number : Nat)
    : let rest := readLines.go (number + 1 + body.length) 0 below
      readLines.go number 0
        (blockHeader indent key keepEnd :: (body.map (indented (indent + deeper)) ++ below))
        =
      ⟨blockLine indent key keepEnd body number :: rest.value, rest.notes⟩ := by
  have hskip := readLines_skip (number + 1) (body.map (indented (indent + deeper))) below
  rw [List.length_map] at hskip
  rw [readLines.go, readLine_blockHeader hkey hname, takeWhile_indented hdeeper hbelow,
    blockText_indented hdeeper hbelow hbody]
  simp [bind, pure, hskip, blockLine]

/--
A block carries its lines as they are, whatever they hold, and the line below it is read as a line
of its own. The text may end with the last line of the block, or go on with a line that is not blank
and not indented deeper than the entry.
-/
theorem linesAt_blockSource {indent deeper : Nat} (hdeeper : 1 ≤ deeper) {key : Atom}
    (hkey : key.isTidy) (hname : key.text ≠ "") {body : RawLines} (hbody : IsVerbatim body)
    (keepEnd : Bool) (number : Nat)
    : let text := blockSource indent deeper key keepEnd body
      let line := blockLine indent key keepEnd body number
      linesAt number text = ⟨[line], []⟩ ∧
      ∀ below, (∀ next ∈ (rawLinesOf below).head?,
          allBlank next = false ∧ leadingBlanks next ≤ indent) →
        let rest := linesAt (number + 1 + body.length) below
        linesAt number (text ++ '\n' :: below) = ⟨line :: rest.value, rest.notes⟩ := by
  intro text line
  have hraw : ∀ other ∈ blockHeader indent key keepEnd :: body.map (indented (indent + deeper)),
      IsRawLine other := by
    rw [List.forall_mem_cons, List.forall_mem_map]
    exact ⟨isRawLine_blockHeader hkey indent keepEnd,
      fun other hother => (hbody.raw other hother).indented _⟩
  have hne : ∀ other ∈ blockHeader indent key keepEnd :: body.map (indented (indent + deeper)),
      other ≠ [] := by
    rw [List.forall_mem_cons, List.forall_mem_map]
    constructor
    . simp [blockHeader, indented]
    . intro other _ hnil
      have hlength := congrArg List.length hnil
      simp only [indented, List.length_append, List.length_replicate, List.length_nil] at hlength
      omega
  constructor
  . have hlast : ∀ last ∈ (blockHeader indent key keepEnd ::
        body.map (indented (indent + deeper))).getLast?, rawLinesOf (last ++ []) = [last] := by
      intro last hlast
      have hmem := List.mem_of_getLast? hlast
      rw [List.append_nil]
      exact (hraw last hmem).rawLinesOf_last (hne last hmem)
    have hlines := rawLinesOf_intercalate hraw hlast
    have hnone : ∀ next ∈ ([] : RawLines).head?, inBlock indent next = false := by
      rintro next hnext
      cases hnext
    have hread := readLines_block hdeeper hkey hname hbody hnone keepEnd number
    rw [List.append_nil] at hlines
    unfold linesAt text blockSource
    rw [hlines]
    exact hread
  . intro below hbelow rest
    have hlines := rawLinesOf_intercalate hraw fun last hlast =>
      (hraw last (List.mem_of_getLast? hlast)).rawLinesOf_append below
    have hends : ∀ next ∈ (rawLinesOf below).head?, inBlock indent next = false := by
      intro next hnext
      obtain ⟨hblank, hleading⟩ := hbelow next hnext
      simp [inBlock, hblank, hleading]
    have hread := readLines_block hdeeper hkey hname hbody hends keepEnd number
    unfold linesAt text blockSource
    rw [hlines]
    exact hread

/-- A block can hold comments, what would end an agent, open quotes, and blank lines. -/
theorem linesAt_blockSource_of_marks
    : let body := ["# note".toList, [], "\t@end \"open".toList, "  ".toList, "key: |".toList]
      let text := "  say: |-\n    # note\n    \n    \t@end \"open\n      \n    key: |\nnext: 1"
      let next : Line := ⟨10, 0, .entry "next" (some (.atom (.plain "1"))), "next: 1"⟩
      IsVerbatim body ∧
      linesAt 4 text.toList = ⟨[blockLine 2 (.plain "say") false body 4, next], []⟩ := by
  intro body text next
  have hraw : ∀ line ∈ body, '\n' ∉ line ∧ line.getLast? ≠ some '\r' := by decide
  have hbody : IsVerbatim body :=
    ⟨fun line hline => ⟨(hraw line hline).1, (hraw line hline).2⟩, by decide,
      ⟨_, List.mem_cons_self, '#', rfl, rfl⟩⟩
  obtain ⟨_, hread⟩ := @linesAt_blockSource 2 2 (by decide) (.plain "say") (by decide +kernel)
    (by decide) body hbody false 4
  have hnext : linesAt (4 + 1 + body.length) "next: 1".toList = ⟨[next], []⟩ := rfl
  have htext : blockSource 2 2 (.plain "say") false body ++ '\n' :: "next: 1".toList
      = text.toList := by
    decide +kernel
  refine ⟨hbody, ?_⟩
  have hall := hread "next: 1".toList (by decide)
  dsimp only at hall
  rw [htext, hnext] at hall
  exact hall

end Runbook.Source
