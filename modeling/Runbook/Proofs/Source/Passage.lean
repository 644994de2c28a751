import Mathlib.Data.List.DropRight
import Runbook.Proofs.Source.Slot

/-!
This module contains the lines of a source text that is put together from others: texts of whole
lines that are read alike wherever they stand, and lines before which no block goes on, so that what
is above them is read without regard to what is below.
-/

namespace Runbook.Source

open Text

def staysOnLine (c : Char) : Bool :=
  c ≠ '\n' && c ≠ '\r'

theorem staysOnLine_iff {c : Char} : staysOnLine c ↔ c ≠ '\n' ∧ c ≠ '\r' := by
  simp [staysOnLine]

theorem rdropWhile_append_of_all {α : Type} {p : α → Bool} (xs : List α) {ys : List α}
    (h : ys.all p)
    : (xs ++ ys).rdropWhile p = xs.rdropWhile p := by
  unfold List.rdropWhile
  rw [List.reverse_append, List.dropWhile_append_of_pos]
  intro y hy
  exact List.all_eq_true.mp h y (List.mem_reverse.mp hy)

theorem dropTail_eq_rdropWhile (p : Char → Bool) (s : List Char)
    : dropTail p s = s.rdropWhile p := by
  induction s with
  | nil => rfl
  | cons c cs ih =>
    unfold List.rdropWhile at ih ⊢
    rw [dropTail, ih, List.reverse_cons, List.dropWhile_append]
    generalize List.dropWhile p cs.reverse = kept
    cases kept with
    | nil => by_cases hc : p c <;> simp [hc]
    | cons d ds => simp

theorem dropTail_of_getLast? {p : Char → Bool} {s : List Char} (h : ∀ c ∈ s.getLast?, p c = false)
    : dropTail p s = s := by
  rw [dropTail_eq_rdropWhile, List.rdropWhile_eq_self_iff]
  intro hne
  rw [h (s.getLast hne) (List.getLast?_eq_some_getLast hne)]
  exact Bool.false_ne_true

/-- A line that is kept as it is: no line end is in it, and no carriage return at its end. -/
structure IsRawLine (line : List Char) : Prop where
  unbroken : '\n' ∉ line
  kept : line.getLast? ≠ some '\r'

theorem isRawLine_of_staysOnLine {line : List Char} (h : ∀ c ∈ line, staysOnLine c)
    : IsRawLine line where
  unbroken hmem := (staysOnLine_iff.mp (h _ hmem)).1 rfl
  kept hlast := (staysOnLine_iff.mp (h _ (List.mem_of_getLast? hlast))).2 rfl

theorem rawLines_append {line : List Char} (h : '\n' ∉ line) (rest : List Char)
    : rawLines (line ++ '\n' :: rest) = line :: rawLines rest := by
  induction line with
  | nil => rfl
  | cons c cs ih =>
    have hc : c ≠ '\n' := (List.ne_of_not_mem_cons h).symm
    rw [List.cons_append, rawLines, if_neg hc, ih (List.not_mem_of_not_mem_cons h)]

theorem rawLines_last {line : List Char} (h : '\n' ∉ line) (hne : line ≠ [])
    : rawLines line = [line] := by
  induction line with
  | nil => exact absurd rfl hne
  | cons c cs ih =>
    have hc : c ≠ '\n' := (List.ne_of_not_mem_cons h).symm
    rw [rawLines, if_neg hc]
    cases cs with
    | nil => rfl
    | cons d ds => rw [ih (List.not_mem_of_not_mem_cons h) (List.cons_ne_nil d ds)]

/-- A text as raw lines. Carriage returns at their ends do not count. -/
def rawLinesOf (text : List Char) : RawLines :=
  (rawLines text).map (dropTail (· = '\r'))

theorem IsRawLine.dropTail_eq {line : List Char} (h : IsRawLine line)
    : dropTail (· = '\r') line = line := by
  apply dropTail_of_getLast?
  rintro c hc
  exact decide_eq_false fun hreturn => h.kept (hreturn ▸ hc)

theorem IsRawLine.rawLinesOf_append {line : List Char} (h : IsRawLine line) (rest : List Char)
    : rawLinesOf (line ++ '\n' :: rest) = line :: rawLinesOf rest := by
  unfold rawLinesOf
  rw [rawLines_append h.unbroken, List.map_cons, h.dropTail_eq]

theorem IsRawLine.rawLinesOf_last {line : List Char} (h : IsRawLine line) (hne : line ≠ [])
    : rawLinesOf line = [line] := by
  unfold rawLinesOf
  rw [rawLines_last h.unbroken hne, List.map_singleton, h.dropTail_eq]

/-- The lines of a text whose first line has a given number. -/
def linesAt (number : Nat) (text : List Char) : Noted (List Line) :=
  readLines.go number 0 (rawLinesOf text)

theorem linesOf_eq_linesAt (source : String) : linesOf source = linesAt 1 source.toList := rfl

section Reading

variable {number taken : Nat} {lines : RawLines}

theorem exists_readLine_of_note {d : Diagnostic}
    (h : d ∈ (readLines.go number taken lines).notes)
    : ∃ above raw below, lines = above ++ raw :: below ∧
        d ∈ (readLine (number + above.length) raw below).notes := by
  induction lines generalizing number taken with
  | nil => cases h
  | cons first rest ih =>
    have hrest {taken : Nat} (h : d ∈ (readLines.go (number + 1) taken rest).notes)
        : ∃ above raw below, first :: rest = above ++ raw :: below ∧
            d ∈ (readLine (number + above.length) raw below).notes := by
      obtain ⟨above, raw, below, rfl, hread⟩ := ih h
      refine ⟨first :: above, raw, below, rfl, ?_⟩
      rw [List.length_cons, Nat.add_comm above.length 1, ← Nat.add_assoc]
      exact hread
    cases taken with
    | succ taken => exact hrest h
    | zero =>
      rw [readLines.go] at h
      simp only [Noted.bind_notes, Noted.pure_notes, List.append_nil, List.mem_append] at h
      cases h with
      | inl hfirst => exact ⟨[], first, rest, rfl, hfirst⟩
      | inr h => exact hrest h

theorem exists_readLine_of_line {line : Line}
    (h : line ∈ (readLines.go number taken lines).value)
    : ∃ above raw below, lines = above ++ raw :: below ∧
        (readLine (number + above.length) raw below).value.value = some line ∧
        (readLine (number + above.length) raw below).notes ⊆
          (readLines.go number taken lines).notes := by
  induction lines generalizing number taken with
  | nil => cases h
  | cons first rest ih =>
    have hrest {taken : Nat} (h : line ∈ (readLines.go (number + 1) taken rest).value)
        : ∃ above raw below, first :: rest = above ++ raw :: below ∧
            (readLine (number + above.length) raw below).value.value = some line ∧
            (readLine (number + above.length) raw below).notes ⊆
              (readLines.go (number + 1) taken rest).notes := by
      obtain ⟨above, raw, below, rfl, hread⟩ := ih h
      refine ⟨first :: above, raw, below, rfl, ?_⟩
      rw [List.length_cons, Nat.add_comm above.length 1, ← Nat.add_assoc]
      exact hread
    cases taken with
    | succ taken => exact hrest h
    | zero =>
      rw [readLines.go] at h ⊢
      simp only [Noted.bind_value, Noted.pure_value, List.mem_append, Option.mem_toList] at h
      simp only [Noted.bind_notes, Noted.pure_notes, List.append_nil]
      cases h with
      | inl hfirst => exact ⟨[], first, rest, rfl, hfirst, List.subset_append_left _ _⟩
      | inr h =>
        obtain ⟨above, raw, below, hlines, hread, hnotes⟩ := hrest h
        exact ⟨above, raw, below, hlines, hread,
          List.Subset.trans hnotes (List.subset_append_right _ _)⟩

end Reading

def indented (columns : Nat) (line : List Char) : List Char :=
  List.replicate columns ' ' ++ line

theorem isBlank_of_mem_replicate {columns : Nat} : ∀ c ∈ List.replicate columns ' ', isBlank c := by
  intro c hc
  rw [List.eq_of_mem_replicate hc]
  rfl

section Indented

variable {content : List Char} (h : ∀ c ∈ content.head?, isBlank c = false) (columns : Nat)
include h

theorem trimStart_eq_self : trimStart content = content := by
  unfold trimStart
  cases content with
  | nil => rfl
  | cons c cs => exact List.dropWhile_cons_of_neg (by simp [h c rfl])

theorem takeWhile_isBlank_eq_nil : content.takeWhile isBlank = [] := by
  cases content with
  | nil => rfl
  | cons c cs => exact List.takeWhile_cons_of_neg (by simp [h c rfl])

theorem trimStart_indented : trimStart (indented columns content) = content := by
  unfold indented
  rw [trimStart, List.dropWhile_append_of_pos isBlank_of_mem_replicate]
  exact trimStart_eq_self h

theorem leading_indented : leading (indented columns content) = List.replicate columns ' ' := by
  unfold leading indented
  rw [List.takeWhile_append_of_pos isBlank_of_mem_replicate, takeWhile_isBlank_eq_nil h]
  exact List.append_nil _

end Indented

theorem tabNotes_replicate (site : Site) (columns : Nat)
    : tabNotes site (List.replicate columns ' ') = [] := by
  unfold tabNotes
  rw [if_neg]
  simp

theorem readLine_indented {content : List Char} {indent : Nat} {token : Token} (hne : content ≠ [])
    (hfirst : ∀ c ∈ content.head?, isBlank c = false ∧ c ≠ '#')
    (htoken : ∀ site following, readToken site following content indent = ⟨⟨token, 0⟩, []⟩)
    (number : Nat) (following : RawLines)
    : let raw := List.replicate indent ' ' ++ content
      readLine number raw following
        =
      ⟨⟨some ⟨number, indent, token, String.ofList raw⟩, 0⟩, []⟩ := by
  intro raw
  have hblank : ∀ c ∈ content.head?, isBlank c = false := fun c hc => (hfirst c hc).1
  have htrim : trimStart raw = content := trimStart_indented hblank indent
  have hleading : raw.takeWhile isBlank = List.replicate indent ' ' :=
    leading_indented hblank indent
  obtain ⟨c, cs, rfl⟩ := List.exists_cons_of_ne_nil hne
  obtain ⟨_, hhash⟩ := hfirst c rfl
  unfold readLine
  dsimp only
  rw [htrim, hleading, tabNotes_replicate, List.length_replicate, htoken]
  rw [if_neg (by simp [hhash])]
  rfl

/--
Whether a text is made of whole lines, `count` of them, that are read without a report as the same
lines whatever follows; the function gives them for the number of the first one.
-/
def ReadsAs (text : List Char) (count : Nat) (lines : Nat → List Line) : Prop :=
  ∀ number rest,
    linesAt number (text ++ rest)
      =
    ⟨lines number ++ (linesAt (number + count) rest).value, (linesAt (number + count) rest).notes⟩

namespace ReadsAs

theorem nil : ReadsAs [] 0 fun _ => [] := by
  intro number rest
  rfl

theorem append {first second : List Char} {m n : Nat} {lines more : Nat → List Line}
    (hfirst : ReadsAs first m lines) (hsecond : ReadsAs second n more)
    : ReadsAs (first ++ second) (m + n) fun number => lines number ++ more (number + m) := by
  intro number rest
  rw [List.append_assoc, hfirst, hsecond, List.append_assoc, Nat.add_assoc]

theorem single {text : List Char} {line : Nat → Line} (hstays : ∀ c ∈ text, staysOnLine c)
    (hread : ∀ number following, readLine number text following = ⟨⟨some (line number), 0⟩, []⟩)
    : ReadsAs (text ++ ['\n']) 1 fun number => [line number] := by
  intro number rest
  unfold linesAt
  rw [List.append_assoc, List.singleton_append,
    (isRawLine_of_staysOnLine hstays).rawLinesOf_append, readLines.go]
  dsimp only [bind]
  rw [hread]
  simp

theorem linesAt {text : List Char} {count : Nat} {lines : Nat → List Line}
    (h : ReadsAs text count lines) (number : Nat)
    : linesAt number text = ⟨lines number, []⟩ := by
  have hall := h number []
  rw [List.append_nil] at hall
  rw [hall]
  exact congrArg (Noted.mk · []) (List.append_nil _)

theorem linesOf {text : List Char} {count : Nat} {lines : Nat → List Line}
    (h : ReadsAs text count lines)
    : linesOf (String.ofList text) = ⟨lines 1, []⟩ := by
  rw [linesOf_eq_linesAt, String.toList_ofList, h.linesAt]

end ReadsAs

def EndsBlocks (line : List Char) : Prop :=
  ∀ owner, inBlock owner line = false

section Barrier

variable {barrier : List Char} (h : EndsBlocks barrier) (above below : RawLines)
include h

theorem EndsBlocks.takeWhile (owner : Nat)
    : (above ++ barrier :: below).takeWhile (inBlock owner) = above.takeWhile (inBlock owner) := by
  induction above with
  | nil =>
    rw [List.nil_append, List.takeWhile_cons_of_neg]
    . rfl
    . rw [h owner]
      simp
  | cons line rest ih =>
    by_cases hline : inBlock owner line
    . rw [List.cons_append, List.takeWhile_cons_of_pos hline, List.takeWhile_cons_of_pos hline, ih]
    . rw [List.cons_append, List.takeWhile_cons_of_neg hline, List.takeWhile_cons_of_neg hline]

theorem EndsBlocks.readLine (number : Nat) (raw : List Char)
    : readLine number raw (above ++ barrier :: below) = readLine number raw above ∧
      (readLine number raw above).value.lines ≤ above.length := by
  cases blockUse raw with
  | closed hread =>
    obtain ⟨hlines, habove⟩ := hread number above
    rw [(hread number _).2, ← habove, hlines]
    exact ⟨rfl, Nat.zero_le _⟩
  | opens owner hread =>
    have hbody : blockBody owner (above ++ barrier :: below) = blockBody owner above := by
      unfold blockBody
      rw [h.takeWhile]
    have habove := hread number above above rfl
    rw [hread number _ above hbody, h.takeWhile, ← habove, habove]
    exact ⟨rfl, (List.takeWhile_sublist _).length_le⟩

theorem EndsBlocks.readLines (number taken : Nat) (htaken : taken ≤ above.length)
    : readLines.go number taken (above ++ barrier :: below)
        =
      ⟨(readLines.go number taken above).value ++
          (readLines.go (number + above.length) 0 (barrier :: below)).value,
        (readLines.go number taken above).notes ++
          (readLines.go (number + above.length) 0 (barrier :: below)).notes⟩ := by
  induction above generalizing number taken with
  | nil =>
    cases taken with
    | zero => rfl
    | succ taken => simp at htaken
  | cons raw above ih =>
    have hnext : number + (raw :: above).length = number + 1 + above.length := by
      simp
      omega
    rw [List.cons_append, hnext]
    cases taken with
    | succ taken => exact ih (number + 1) taken (Nat.le_of_succ_le_succ htaken)
    | zero =>
      -- a block that the first line opens ends above the barrier
      obtain ⟨hline, hlines⟩ := EndsBlocks.readLine h above below number raw
      rw [readLines.go, readLines.go]
      dsimp only [bind]
      rw [hline, ih (number + 1) _ hlines]
      simp

end Barrier

theorem rawLines_ne_nil (text : List Char) : rawLines (text ++ ['\n']) ≠ [] := by
  cases text with
  | nil => exact List.cons_ne_nil _ _
  | cons c cs =>
    rw [List.cons_append, rawLines]
    split
    . exact List.cons_ne_nil _ _
    . split <;> exact List.cons_ne_nil _ _

theorem rawLines_append_newline (above below : List Char)
    : rawLines (above ++ '\n' :: below) = rawLines (above ++ ['\n']) ++ rawLines below := by
  induction above with
  | nil => rfl
  | cons c cs ih =>
    rw [List.cons_append, List.cons_append, rawLines, rawLines, ih]
    split
    . rfl
    . -- the character joins the first of the lines above, of which there is at least one
      cases hlines : rawLines (cs ++ ['\n']) with
      | nil => exact absurd hlines (rawLines_ne_nil cs)
      | cons line lines => rfl

/-- A text is read down to a line that no block takes, and then on from that line. -/
theorem linesAt_append (number : Nat) (above : List Char) {barrier : List Char}
    (hstays : ∀ c ∈ barrier, staysOnLine c) (hbarrier : EndsBlocks barrier) (below : List Char)
    : let first := linesAt number (above ++ ['\n'])
      let next := number + (rawLinesOf (above ++ ['\n'])).length
      let rest := linesAt next (barrier ++ '\n' :: below)
      linesAt number (above ++ '\n' :: (barrier ++ '\n' :: below))
        =
      ⟨first.value ++ rest.value, first.notes ++ rest.notes⟩ := by
  have hsplit : rawLinesOf (above ++ '\n' :: (barrier ++ '\n' :: below))
      = rawLinesOf (above ++ ['\n']) ++ barrier :: rawLinesOf below := by
    rw [← (isRawLine_of_staysOnLine hstays).rawLinesOf_append]
    unfold rawLinesOf
    rw [rawLines_append_newline, List.map_append]
  unfold linesAt
  dsimp only
  rw [hsplit, hbarrier.readLines _ _ _ 0 (Nat.zero_le _),
    (isRawLine_of_staysOnLine hstays).rawLinesOf_append]

end Runbook.Source
