import Runbook.Proofs.Source.Passage

/-!
This module contains what a blank line or a comment does where it is inserted into a text: outside
of blocks nothing, except that the lines below it move down by one.
-/

namespace Runbook.Source

open Text

/-- Whether a line is blank, or a comment from its first character on. -/
def isIdle (line : List Char) : Bool :=
  allBlank line || line.head? = some '#'

/--
The number of lines below a place that belong to the block which is open there; none if no block is.
The first argument counts the lines that a block takes from the beginning on.
-/
def openBlock : Nat → RawLines → RawLines → Nat
  | taken, [], _ => taken
  | taken + 1, _ :: above, below => openBlock taken above below
  | 0, raw :: above, below =>
    openBlock (readLine 1 raw (above ++ below)).value.lines above below

/--
Whether a place between lines is inside of the body of a block: the block goes on below it. Blank
lines after the last line of a body are no part of the body.
-/
def insideBlock (above below : RawLines) : Bool :=
  (below.take (openBlock 0 above below)).any (!allBlank ·)

/-- A line number after a line was inserted that has the number `inserted`. -/
def movedNumber (inserted number : Nat) : Nat :=
  if inserted ≤ number then number + 1 else number

def Line.moved (inserted : Nat) (line : Line) : Line :=
  { line with number := movedNumber inserted line.number }

end Runbook.Source

namespace Runbook

open Source

def Diagnostic.moved (inserted : Nat) (d : Diagnostic) : Diagnostic :=
  { d with line := movedNumber inserted d.line }

/-- Lines and their problems after a line was inserted that has the number `inserted`. -/
def Noted.moved (inserted : Nat) (lines : Noted (List Line)) : Noted (List Line) :=
  ⟨lines.value.map (Line.moved inserted), lines.notes.map (Diagnostic.moved inserted)⟩

end Runbook

namespace Runbook.Source

open Text

theorem one_le_movedNumber {number : Nat} (h : 1 ≤ number) (inserted : Nat)
    : 1 ≤ movedNumber inserted number := by
  unfold movedNumber
  split <;> omega

@[simp]
theorem withSuggestion_moved (d : Diagnostic) (hint : String) (inserted : Nat)
    : (d.withSuggestion hint).moved inserted = (d.moved inserted).withSuggestion hint := rfl

@[simp]
theorem withContext_moved (d : Diagnostic) (line : String) (inserted : Nat)
    : (d.withContext line).moved inserted = (d.moved inserted).withContext line := by
  unfold Diagnostic.withContext
  split <;> rfl

theorem Site.report_moved (raw : List Char) (remark : Remark) {number : Nat} (h : 1 ≤ number)
    (inserted : Nat)
    : ((⟨number, raw⟩ : Site).report remark).moved inserted
        =
      (⟨movedNumber inserted number, raw⟩ : Site).report remark := by
  have hnumber := Nat.max_eq_right h
  have hmoved := Nat.max_eq_right (one_le_movedNumber h inserted)
  unfold report
  cases remark.severity with
  | error =>
    simp only [error, withSuggestion_moved, withContext_moved]
    simp [Diagnostic.moved, Diagnostic.error, hnumber, hmoved]
  | warning =>
    simp only [warning, withSuggestion_moved, withContext_moved]
    simp [Diagnostic.moved, Diagnostic.warning, hnumber, hmoved]

theorem readLine_moved (raw : List Char) (following : RawLines) {number : Nat} (h : 1 ≤ number)
    (inserted : Nat)
    : let line := readLine number raw following
      readLine (movedNumber inserted number) raw following
        =
      ⟨⟨line.value.value.map (Line.moved inserted), line.value.lines⟩,
        line.notes.map (Diagnostic.moved inserted)⟩ := by
  obtain ⟨token, lines, remarks, hread⟩ := readLine_eq raw following
  have hremarks : remarks.map (Site.report ⟨movedNumber inserted number, raw⟩)
      = (remarks.map (Site.report ⟨number, raw⟩)).map (Diagnostic.moved inserted) := by
    rw [List.map_map]
    exact List.map_congr_left fun remark _ => (Site.report_moved raw remark h inserted).symm
  intro line
  unfold line
  rw [hread, hread, hremarks, Option.map_map]
  rfl

theorem readLine_of_isIdle {raw : List Char} (h : isIdle raw) (number : Nat) (following : RawLines)
    : readLine number raw following = ⟨⟨none, 0⟩, []⟩ := by
  unfold isIdle allBlank at h
  rw [Bool.or_eq_true, decide_eq_true_eq] at h
  have hnothing : (trimStart raw).isEmpty || (trimStart raw).head? = some '#' := by
    unfold trimStart
    cases h with
    | inl hblank =>
      rw [List.all_eq_true] at hblank
      rw [List.dropWhile_eq_nil_iff.mpr hblank]
      rfl
    | inr hhash =>
      obtain ⟨rest, rfl⟩ := List.head?_eq_some_iff.mp hhash
      rfl
  unfold readLine
  dsimp only
  rw [if_pos hnothing]
  rfl

theorem readLines_succ {inserted number : Nat} (h : inserted ≤ number) (hpos : 1 ≤ number)
    (taken : Nat) (lines : RawLines)
    : readLines.go (number + 1) taken lines = (readLines.go number taken lines).moved inserted := by
  induction lines generalizing number taken with
  | nil => rfl
  | cons raw rest ih =>
    cases taken with
    | succ taken => exact ih (Nat.le_succ_of_le h) (Nat.le_succ_of_le hpos) taken
    | zero =>
      have hnumber : movedNumber inserted number = number + 1 := if_pos h
      have hline := readLine_moved raw rest hpos inserted
      dsimp only at hline
      rw [hnumber] at hline
      rw [readLines.go, readLines.go]
      dsimp only [bind]
      rw [hline, ih (Nat.le_succ_of_le h) (Nat.le_succ_of_le hpos)]
      simp [Noted.moved, Option.toList_map]

theorem readLines_allBlank (number : Nat) {taken : Nat} {lines : RawLines}
    (h : (lines.take taken).all allBlank)
    : readLines.go number taken lines = readLines.go number 0 lines := by
  induction lines generalizing number taken with
  | nil => rfl
  | cons raw rest ih =>
    cases taken with
    | zero => rfl
    | succ taken =>
      rw [List.take_succ_cons, List.all_cons, Bool.and_eq_true] at h
      obtain ⟨hraw, hrest⟩ := h
      have hidle : isIdle raw := by
        simp [isIdle, hraw]
      rw [readLines.go, readLines.go, readLine_of_isIdle hidle, ih _ hrest]
      simp [bind, pure]

theorem openBlock_of_le {taken : Nat} {above : RawLines} (h : above.length ≤ taken)
    (below : RawLines)
    : openBlock taken above below = taken - above.length := by
  induction above generalizing taken with
  | nil => simp [openBlock]
  | cons raw rest ih =>
    cases taken with
    | zero => simp at h
    | succ taken =>
      rw [List.length_cons] at h
      rw [openBlock, ih (Nat.le_of_succ_le_succ h), List.length_cons]
      omega

/--
What the block takes that is open at the top of two texts, of which one has an inserted line
below `above`: the same as far as the inserted line is not reached, and only blank lines below it.
-/
structure Abreast (above below : RawLines) (taken other : Nat) : Prop where
  same : min taken above.length = min other above.length
  blank : (below.take (other - (above.length + 1))).all allBlank

theorem allBlank_of_inBlock {line : List Char} (h : isIdle line) {owner : Nat}
    (hblock : inBlock owner line)
    : allBlank line := by
  unfold isIdle at h
  rw [Bool.or_eq_true, decide_eq_true_eq] at h
  cases h with
  | inl hblank => exact hblank
  | inr hhash =>
    obtain ⟨rest, rfl⟩ := List.head?_eq_some_iff.mp hhash
    exact Bool.noConfusion (hblock : false = true)

theorem takeWhile_above {α : Type} (p : α → Bool) (above : List α)
    : ((above.takeWhile p).length < above.length ∧
        ∀ below, (above ++ below).takeWhile p = above.takeWhile p) ∨
      ∀ below, (above ++ below).takeWhile p = above ++ below.takeWhile p := by
  by_cases hlength : (above.takeWhile p).length = above.length
  . right
    intro below
    rw [List.takeWhile_append, if_pos hlength]
  . left
    have hle := (List.takeWhile_sublist p (l := above)).length_le
    refine ⟨by omega, ?_⟩
    intro below
    rw [List.takeWhile_append, if_neg hlength]

theorem block_insert {line : List Char} (hline : isIdle line) (owner : Nat) {above below : RawLines}
    (hblank : let taken := ((above ++ below).takeWhile (inBlock owner)).length
      (below.take (taken - above.length)).all allBlank)
    : blockBody owner (above ++ line :: below) = blockBody owner (above ++ below) ∧
      Abreast above below ((above ++ below).takeWhile (inBlock owner)).length
        ((above ++ line :: below).takeWhile (inBlock owner)).length := by
  have hbody (lines : RawLines)
      : blockBody owner lines = (lines.takeWhile (inBlock owner)).rdropWhile allBlank := rfl
  rw [hbody, hbody]
  obtain ⟨hshort, hstop⟩ | hpass := takeWhile_above (inBlock owner) above
  . rw [hstop, hstop]
    refine ⟨rfl, rfl, ?_⟩
    have hzero : (above.takeWhile (inBlock owner)).length - (above.length + 1) = 0 := by omega
    rw [hzero]
    rfl
  . rw [hpass] at hblank ⊢
    rw [hpass, List.length_append, List.length_append]
    have htake : below.take (below.takeWhile (inBlock owner)).length
        = below.takeWhile (inBlock owner) :=
      List.prefix_iff_eq_take.mp (List.takeWhile_prefix _) |>.symm
    dsimp only at hblank
    rw [List.length_append, Nat.add_sub_cancel_left, htake] at hblank
    rw [rdropWhile_append_of_all above hblank]
    by_cases hinside : inBlock owner line
    . have hbelow : (line :: below).takeWhile (inBlock owner)
          = line :: below.takeWhile (inBlock owner) := List.takeWhile_cons_of_pos hinside
      have hall : (line :: below.takeWhile (inBlock owner)).all allBlank := by
        rw [List.all_cons, allBlank_of_inBlock hline hinside, hblank]
        rfl
      rw [hbelow, rdropWhile_append_of_all above hall, List.length_cons]
      refine ⟨rfl, by omega, ?_⟩
      have hrest : above.length + ((below.takeWhile (inBlock owner)).length + 1)
          - (above.length + 1) = (below.takeWhile (inBlock owner)).length := by omega
      rw [hrest, htake]
      exact hblank
    . have hbelow : (line :: below).takeWhile (inBlock owner) = [] :=
        List.takeWhile_cons_of_neg hinside
      rw [hbelow, List.append_nil, List.length_nil]
      refine ⟨rfl, by omega, ?_⟩
      have hzero : above.length + 0 - (above.length + 1) = 0 := by omega
      rw [hzero]
      rfl

theorem readLine_insert {line : List Char} (hline : isIdle line) (raw : List Char)
    {above below : RawLines} (number : Nat)
    (houtside : let taken := (readLine number raw (above ++ below)).value.lines
      (below.take (openBlock taken above below)).all allBlank)
    : let first := readLine number raw (above ++ below)
      ∃ other, Abreast above below first.value.lines other ∧
        readLine number raw (above ++ line :: below)
          =
        ⟨⟨first.value.value, other⟩, first.notes⟩ := by
  intro first
  unfold first
  cases blockUse raw with
  | closed hread =>
    obtain ⟨hlines, hfirst⟩ := hread number (above ++ below)
    refine ⟨0, ?_, ?_⟩
    . rw [hlines]
      refine ⟨rfl, ?_⟩
      rw [Nat.zero_sub]
      rfl
    . rw [hfirst] at hlines ⊢
      rw [(hread number (above ++ line :: below)).2, ← hlines]
  | opens owner hread =>
    have hlines : (readLine number raw (above ++ below)).value.lines
        = ((above ++ below).takeWhile (inBlock owner)).length := by
      rw [hread number _ _ rfl]
    have hblank : (below.take
        (((above ++ below).takeWhile (inBlock owner)).length - above.length)).all allBlank := by
      dsimp only at houtside
      rw [hlines] at houtside
      by_cases hle : above.length ≤ ((above ++ below).takeWhile (inBlock owner)).length
      . rw [openBlock_of_le hle] at houtside
        exact houtside
      . rw [Nat.sub_eq_zero_of_le (by omega)]
        rfl
    obtain ⟨hbody, habreast⟩ := block_insert hline owner hblank
    refine ⟨_, ?_, hread number (above ++ line :: below) (above ++ below) hbody⟩
    rw [hlines]
    exact habreast

/-- A run that meets the inserted line goes on like the one that does not, one line further down. -/
theorem readLines_insert {line : List Char} (hline : isIdle line) {above below : RawLines}
    {number taken other : Nat} (hpos : 1 ≤ number) (h : Abreast above below taken other)
    (houtside : (below.take (openBlock taken above below)).all allBlank)
    : readLines.go number other (above ++ line :: below)
        =
      (readLines.go number taken (above ++ below)).moved (number + above.length) := by
  induction above generalizing number taken other with
  | nil =>
    have hnext : readLines.go number other (line :: below) = readLines.go (number + 1) 0 below := by
      cases other with
      | zero =>
        rw [readLines.go, readLine_of_isIdle hline]
        simp [bind, pure]
      | succ other =>
        have hbelow : (below.take other).all allBlank := by
          simpa using h.blank
        exact readLines_allBlank (number + 1) hbelow
    have hskip : readLines.go number taken below = readLines.go number 0 below :=
      readLines_allBlank number houtside
    rw [List.nil_append, List.nil_append, hnext, hskip]
    exact readLines_succ (Nat.le_refl number) hpos 0 below
  | cons raw above ih =>
    have hnumber : number + (raw :: above).length = number + 1 + above.length := by
      rw [List.length_cons]
      omega
    have hsame := h.same
    rw [List.length_cons] at hsame
    rw [List.cons_append, List.cons_append, hnumber]
    cases taken with
    | succ taken =>
      obtain ⟨other, rfl⟩ : ∃ n, other = n + 1 := ⟨other - 1, by omega⟩
      apply ih (Nat.le_succ_of_le hpos) _ houtside
      refine ⟨by omega, ?_⟩
      simpa using h.blank
    | zero =>
      obtain rfl : other = 0 := by omega
      have hlast : (readLine 1 raw (above ++ below)).value.lines
          = (readLine number raw (above ++ below)).value.lines := by
        obtain ⟨_, _, _, hread⟩ := readLine_eq raw (above ++ below)
        rw [hread, hread]
      rw [openBlock, hlast] at houtside
      obtain ⟨other, habreast, hread⟩ := readLine_insert hline raw number houtside
      have hrest := ih (Nat.le_succ_of_le hpos) habreast houtside
      -- the line stands above the inserted one and keeps its number
      have hkept : movedNumber (number + 1 + above.length) number = number := if_neg (by omega)
      have hmoved := readLine_moved raw (above ++ below) hpos (number + 1 + above.length)
      rw [hkept] at hmoved
      have hvalue := congrArg (fun line => line.value.value.toList) hmoved
      have hnotes := congrArg Noted.notes hmoved
      dsimp only at hvalue hnotes
      rw [Option.toList_map] at hvalue
      rw [readLines.go, readLines.go]
      dsimp only [bind]
      rw [hread, hrest]
      simp [Noted.moved, ← hvalue, ← hnotes]

/--
A blank line or a comment that is inserted outside of blocks changes nothing in what a text is read
as, except that the numbers of the lines from there on grow by one.
-/
theorem idle_line_invisible {source edited : String} {above below : RawLines} {line : List Char}
    (hsource : rawLinesOf source.toList = above ++ below)
    (hedited : rawLinesOf edited.toList = above ++ line :: below) (hline : isIdle line)
    (houtside : insideBlock above below = false)
    : linesOf edited = (linesOf source).moved (above.length + 1) := by
  have hblank : (below.take (openBlock 0 above below)).all allBlank := by
    unfold insideBlock at houtside
    simpa [List.any_eq_false] using houtside
  have habreast : Abreast above below 0 0 := by
    refine ⟨rfl, ?_⟩
    rw [Nat.zero_sub]
    rfl
  rw [linesOf_eq_linesAt, linesOf_eq_linesAt]
  unfold linesAt
  rw [hsource, hedited, Nat.add_comm above.length 1]
  exact readLines_insert hline (Nat.le_refl 1) habreast hblank

/-- Below the last line of a block, a comment ends it before its blank lines do. -/
theorem idle_line_invisible_below_block
    : let above := ["a: |".toList, "  x".toList]
      let below := ["".toList, "b: \"oops".toList]
      insideBlock above below = false ∧
      linesOf "a: |\n  x\n# c\n\nb: \"oops" = (linesOf "a: |\n  x\n\nb: \"oops").moved 3 := by
  intro above below
  have houtside : insideBlock above below = false := by decide +kernel
  exact ⟨houtside,
    @idle_line_invisible _ _ above below "# c".toList (by decide) (by decide) (by decide) houtside⟩

example : insideBlock ["a: |".toList] ["  x".toList] = true := by decide +kernel

end Runbook.Source
