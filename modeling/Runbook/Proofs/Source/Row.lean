import Runbook.Proofs.Source.Atom
import Runbook.Proofs.Source.Passage

/-!
This module contains the rows of block notation as they are written, and the reason why each of them
is read as the line that it was written for.
-/

namespace Runbook.Source

open Text

/-- What is written behind a dash. -/
inductive Body where
  | empty
  | atom (value : Atom)
  | entry (key : Atom) (value : Option Atom)

/-- A line of block notation before it is written. -/
inductive Row where
  | entry (indent : Nat) (key : Atom) (value : Option Atom)
  | item (indent : Nat) (body : Body)

def valueSource : Option Atom → List Char
  | none => []
  | some value => ' ' :: value.source

def entrySource (key : Atom) (value : Option Atom) : List Char :=
  key.source ++ ':' :: valueSource value

def isTidyEntry (key : Atom) (value : Option Atom) : Bool :=
  key.isTidy && !key.text.toList.isEmpty && value.all Atom.isTidy

namespace Body

def content : Body → List Char
  | empty => []
  | atom value => value.source
  | entry key value => entrySource key value

/-- What is written behind the dash. -/
def source : Body → List Char
  | empty => []
  | atom value => ' ' :: value.source
  | entry key value => ' ' :: entrySource key value

def read : Body → ItemBody
  | empty => .empty
  | atom value => .scalar (.atom value)
  | entry key value => .entry key.text (value.map .atom)

def offset : Body → Nat
  | empty => 1
  | atom _ => 2
  | entry _ _ => 2

/-- Whether a body can be read as it is written. -/
def isTidy : Body → Bool
  | empty => true
  | atom value => value.isTidy
  | entry key value => isTidyEntry key value

end Body

namespace Row

def indent : Row → Nat
  | entry indent _ _ => indent
  | item indent _ => indent

def content : Row → List Char
  | entry _ key value => entrySource key value
  | item _ body => '-' :: body.source

/-- A row as it is written, without the end of the line. -/
def source (row : Row) : List Char :=
  List.replicate row.indent ' ' ++ row.content

/-- What a row is read as. -/
def token : Row → Token
  | entry _ key value => .entry key.text (value.map .atom)
  | item indent body => .item (indent + body.offset) body.read

/-- The line that a row is read as. -/
def line (row : Row) (number : Nat) : Line :=
  ⟨number, row.indent, row.token, String.ofList row.source⟩

/-- Whether a row can be read as it is written. -/
def isTidy : Row → Bool
  | entry _ key value => isTidyEntry key value
  | item _ body => body.isTidy

end Row

def linesFrom (number : Nat) : List Row → List Line
  | [] => []
  | row :: rows => row.line number :: linesFrom (number + 1) rows

/-- Rows as a text, each with the end of its line. -/
def write (rows : List Row) : List Char :=
  rows.flatMap fun row => row.source ++ ['\n']

theorem isTidyEntry_iff {key : Atom} {value : Option Atom}
    : isTidyEntry key value ↔
      key.isTidy ∧ key.text.toList.isEmpty = false ∧ ∀ atom, value = some atom → atom.isTidy := by
  unfold isTidyEntry
  cases value with
  | none => simp
  | some value => simp [and_assoc]

theorem isTidyEntry_key {key : Atom} {value : Option Atom} (h : isTidyEntry key value)
    : key.isTidy :=
  (isTidyEntry_iff.mp h).1

theorem isTidyEntry_value {key value : Atom} (h : isTidyEntry key (some value)) : value.isTidy :=
  (isTidyEntry_iff.mp h).2.2 value rfl

theorem keySource_eq_cons {key : Atom} (h : key.isTidy) (tail : List Char)
    : ∃ c cs, key.source ++ ':' :: tail = c :: cs ∧ beginsAtom c := by
  obtain ⟨c, cs, hsource, hc⟩ := Atom.source_eq_cons h
  refine ⟨c, cs ++ ':' :: tail, ?_, hc⟩
  rw [hsource]
  rfl

theorem entrySource_eq_cons {key : Atom} {value : Option Atom} (h : isTidyEntry key value)
    : ∃ c cs, entrySource key value = c :: cs ∧ beginsAtom c :=
  keySource_eq_cons (isTidyEntry_key h) (valueSource value)

theorem not_isBlank_keySource {key : Atom} (h : key.isTidy) (tail : List Char)
    : ∀ c ∈ (key.source ++ ':' :: tail).head?, isBlank c = false := by
  obtain ⟨c, cs, hsource, hc⟩ := keySource_eq_cons h tail
  rw [hsource]
  rintro d hd
  cases hd
  exact not_isBlank_of_beginsAtom hc

theorem splitKey?_keySource {key : Atom} (h : key.isTidy) (hne : key.text.toList.isEmpty = false)
    {tail : List Char} (htail : afterColon? (':' :: tail) = some tail)
    : splitKey? (key.source ++ ':' :: tail) = some (key.text.toList, tail) := by
  have hcolon : (':' :: tail).dropWhile isKeyChar = ':' :: tail := rfl
  have hgap : (':' :: tail).dropWhile isGap = ':' :: tail := rfl
  unfold splitKey?
  rw [Atom.readKey?_source h hcolon]
  dsimp only
  rw [hne, hgap, htail]
  rfl

theorem splitKey?_entrySource {key : Atom} {value : Option Atom} (h : isTidyEntry key value)
    : splitKey? (entrySource key value) = some (key.text.toList, valueSource value) := by
  obtain ⟨hkey, hne, _⟩ := isTidyEntry_iff.mp h
  apply splitKey?_keySource hkey hne
  cases value <;> rfl

theorem readKeyed?_entrySource {key : Atom} {value : Option Atom} (h : isTidyEntry key value)
    (site : Site) (following : RawLines) (indent : Nat)
    : readKeyed? site following (entrySource key value) indent
        =
      some ⟨⟨(key.text, value.map .atom), 0⟩, []⟩ := by
  unfold readKeyed?
  rw [splitKey?_entrySource h, Option.map_some]
  dsimp only
  rw [String.ofList_toList]
  cases value with
  | none => rfl
  | some value =>
    have htidy := isTidyEntry_value h
    have htrim : trimStart (valueSource (some value)) = value.source := by
      unfold valueSource trimStart
      rw [List.dropWhile_cons_of_pos rfl]
      exact Atom.trimStart_source htidy
    obtain ⟨b, bs, hbare, _⟩ := Atom.stripComment_source htidy
    rw [htrim, hbare, readValue_source htidy]
    rfl

theorem readKeyed?_source {atom : Atom} (h : atom.isTidy) (site : Site) (following : RawLines)
    (indent : Nat)
    : readKeyed? site following atom.source indent = none := by
  unfold readKeyed?
  rw [splitKey?_source h]
  rfl

theorem Body.trimStart_source {body : Body} (h : body.isTidy)
    : trimStart body.source = body.content := by
  cases body with
  | empty => rfl
  | atom value => exact Atom.trimStart_source h
  | entry key value =>
    change isTidyEntry key value at h
    obtain ⟨c, cs, hsource, hc⟩ := entrySource_eq_cons h
    change trimStart (entrySource key value) = entrySource key value
    rw [hsource]
    exact trimStart_of_beginsAtom hc

theorem stripComment_isEmpty {c : Char} {cs : List Char} (h : beginsAtom c)
    : (stripComment (c :: cs)).isEmpty = false := by
  obtain ⟨rest, hrest⟩ :=
    stripComment_cons (not_isBlank_of_beginsAtom h) (ne_of_beginsAtom h rfl) cs
  rw [hrest]
  rfl

theorem readItem_content {body : Body} (h : body.isTidy) (site : Site) (following : RawLines)
    (column : Nat)
    : readItem site following body.content column = ⟨⟨body.read, 0⟩, []⟩ := by
  cases body with
  | empty => rfl
  | atom value =>
    change readItem site following value.source column = _
    obtain ⟨c, cs, hsource, hc⟩ := Atom.source_eq_cons h
    unfold readItem
    rw [hsource, stripComment_isEmpty hc, ← hsource]
    rw [readKeyed?_source h, readValue_source h]
    rfl
  | entry key value =>
    change readItem site following (entrySource key value) column = _
    change isTidyEntry key value at h
    obtain ⟨c, cs, hsource, hc⟩ := entrySource_eq_cons h
    unfold readItem
    rw [readKeyed?_entrySource h, hsource, stripComment_isEmpty hc]
    rfl

theorem not_isGap_of_word {word pre rest value : List Char} {c : Char}
    (hword : ∀ d ∈ word, isKeyChar d) (hpre : ':' ∉ pre)
    (h : word ++ ':' :: value = pre ++ c :: rest)
    : isGap c = false := by
  -- both rows are walked along in step: `c` is in the word or it is the colon
  induction pre generalizing word with
  | nil =>
    cases word with
    | nil =>
      cases h
      rfl
    | cons d ds =>
      cases h
      have hblank := not_isBlank_of_isKeyChar (hword c (List.mem_cons_self ..))
      cases hgap : isGap c with
      | false => rfl
      | true =>
        unfold isGap at hgap
        simp only [Bool.or_eq_true, decide_eq_true_eq] at hgap
        cases hgap with
        | inl hspace => simp [hspace, isBlank] at hblank
        | inr htab => simp [htab, isBlank] at hblank
  | cons p ps ih =>
    cases word with
    | nil =>
      cases h
      simp at hpre
    | cons d ds =>
      simp only [List.cons_append, List.cons.injEq] at h
      apply ih _ _ h.2
      . intro e he
        exact hword e (List.mem_cons_of_mem d he)
      . intro hcolon
        exact hpre (List.mem_cons_of_mem p hcolon)

theorem afterDash?_keySource {key : Atom} (h : key.isTidy) (tail : List Char)
    : afterDash? (key.source ++ ':' :: tail) = none := by
  cases key with
  | quoted text =>
    unfold afterDash?
    split
    . next heq => simp [Atom.source, quote] at heq
    . next heq => simp [Atom.source, quote] at heq
    . rfl
  | plain text =>
    obtain ⟨hne, hword⟩ := Atom.mem_of_isTidy_plain h
    have hsource : (Atom.plain text).source = text.toList := rfl
    unfold afterDash?
    split
    . next heq =>
      rw [hsource] at heq
      have := congrArg List.length heq
      have := List.length_pos_iff.mpr hne
      simp at *
      omega
    . next c rest heq =>
      rw [hsource] at heq
      have hpre : ':' ∉ ['-'] := by decide
      rw [not_isGap_of_word hword hpre heq]
      rfl
    . rfl

theorem afterStepWord?_keySource {key : Atom} (h : key.isTidy) (tail : List Char)
    : afterStepWord? (key.source ++ ':' :: tail) = none := by
  unfold afterStepWord?
  split
  . next c rest heq =>
    cases key with
    | quoted text => simp [Atom.source, quote] at heq
    | plain text =>
      obtain ⟨_, hword⟩ := Atom.mem_of_isTidy_plain h
      have hpre : ':' ∉ "step".toList := by decide
      rw [not_isGap_of_word hword hpre heq]
      rfl
  . rfl

theorem slot?_keySource {key : Atom} (h : key.isTidy) (hname : key.text ≠ "") (indent : Nat)
    {text : List Char} (htext : ∀ c ∈ text.head?, isBlank c = false)
    (hvalue : (stripComment text).isEmpty = false)
    : slot? (indented indent (key.source ++ ':' :: ' ' :: text))
        =
      some ⟨indent, [' '], text, fun value => .entry key.text (some value)⟩ := by
  have hfirst := not_isBlank_keySource h (' ' :: text)
  have htrim := trimStart_indented hfirst indent
  have hleading : leadingBlanks (indented indent (key.source ++ ':' :: ' ' :: text)) = indent :=
    (congrArg List.length (leading_indented hfirst indent)).trans List.length_replicate
  have hgap : (' ' :: text).takeWhile isBlank = [' '] := by
    rw [List.takeWhile_cons_of_pos rfl, takeWhile_isBlank_eq_nil htext]
  have hrest : trimStart (' ' :: text) = text := trimStart_eq_self htext
  have hsplit : splitKey? (key.source ++ ':' :: ' ' :: text)
      = some (key.text.toList, ' ' :: text) :=
    splitKey?_keySource h (by simpa using hname) rfl
  have hkeyed : keyedSlot? Token.entry (key.source ++ ':' :: ' ' :: text) indent
      = some ⟨indent, [' '], text, fun value => .entry key.text (some value)⟩ := by
    unfold keyedSlot?
    rw [hsplit, Option.bind_some]
    dsimp only
    rw [hgap, hrest, hvalue, String.ofList_toList]
    rfl
  have hstep : isStep (key.source ++ ':' :: ' ' :: text) = false := by
    unfold isStep
    rw [afterStepWord?_keySource h]
    rfl
  obtain ⟨c, cs, hsource, hc⟩ := keySource_eq_cons h (' ' :: text)
  have hslot : contentSlot? (key.source ++ ':' :: ' ' :: text) indent
      = some ⟨indent, [' '], text, fun value => .entry key.text (some value)⟩ := by
    unfold contentSlot?
    rw [afterDash?_keySource h, hstep, hkeyed, hsource]
    exact if_neg (by simp [ne_of_beginsAtom hc (rfl : beginsAtom '@' = false)])
  unfold slot?
  dsimp only
  rw [htrim, hleading, hslot, hsource]
  exact if_neg (by simp [ne_of_beginsAtom hc (rfl : beginsAtom '#' = false)])

theorem readStep?_entrySource {key : Atom} {value : Option Atom} (h : isTidyEntry key value)
    (site : Site) (indent : Nat)
    : readStep? site (entrySource key value) indent = none := by
  have hafter : afterStepWord? (entrySource key value) = none :=
    afterStepWord?_keySource (isTidyEntry_key h) (valueSource value)
  unfold readStep?
  rw [hafter]
  rfl

theorem Body.afterDash? {body : Body}
    : afterDash? ('-' :: body.source) = some body.source := by
  cases body <;> rfl

theorem Row.readToken_content {row : Row} (h : row.isTidy) (site : Site) (following : RawLines)
    : readToken site following row.content row.indent = ⟨⟨row.token, 0⟩, []⟩ := by
  cases row with
  | entry indent key value =>
    change isTidyEntry key value at h
    obtain ⟨c, cs, hsource, hc⟩ := entrySource_eq_cons h
    have hat := ne_of_beginsAtom hc (rfl : beginsAtom '@' = false)
    change readToken site following (entrySource key value) indent = _
    unfold readToken
    split
    . next heq =>
      rw [hsource] at heq
      cases heq
      exact absurd rfl hat
    . have hdash : afterDash? (entrySource key value) = none :=
        afterDash?_keySource (isTidyEntry_key h) (valueSource value)
      rw [hdash, readStep?_entrySource h, readKeyed?_entrySource h]
      rfl
  | item indent body =>
    change body.isTidy at h
    have hcolumn : indent + (('-' :: body.source).length - body.content.length)
        = indent + body.offset := by
      cases body with
      | empty => rfl
      | atom value => simp [Body.source, Body.content, Body.offset]; omega
      | entry key value => simp [Body.source, Body.content, Body.offset]; omega
    change readToken site following ('-' :: body.source) indent = _
    unfold readToken
    split
    . next heq => simp at heq
    . rw [Body.afterDash?]
      dsimp only
      rw [Body.trimStart_source h, hcolumn, readItem_content h]
      rfl

theorem Row.content_eq_cons {row : Row} (h : row.isTidy)
    : ∃ c cs, row.content = c :: cs ∧ beginsAtom c := by
  cases row with
  | entry indent key value => exact entrySource_eq_cons h
  | item indent body => exact ⟨'-', _, rfl, rfl⟩

theorem Row.readLine_source {row : Row} (h : row.isTidy) (number : Nat) (following : RawLines)
    : readLine number row.source following = ⟨⟨some (row.line number), 0⟩, []⟩ := by
  obtain ⟨c, cs, hcontent, hc⟩ := Row.content_eq_cons h
  have hfirst : ∀ d ∈ row.content.head?, isBlank d = false ∧ d ≠ '#' := by
    intro d hd
    rw [hcontent] at hd
    cases hd
    exact ⟨not_isBlank_of_beginsAtom hc, ne_of_beginsAtom hc rfl⟩
  have hne : row.content ≠ [] := by
    rw [hcontent]
    exact List.cons_ne_nil c cs
  exact readLine_indented hne hfirst (Row.readToken_content h) number following

theorem staysOnLine_escape (c : Char) : ∀ d ∈ escape c, staysOnLine d := by
  obtain hescaped | ⟨_, _, hnewline, hreturn, hescape⟩ := escape_cases c
  . obtain rfl | rfl | rfl | rfl | rfl := hescaped <;> simp [escape, staysOnLine]
  . rw [hescape]
    intro d hd
    rw [List.mem_singleton] at hd
    simp [staysOnLine, hd, hnewline, hreturn]

theorem staysOnLine_of_not_isBlank {c : Char} (h : isBlank c = false) : staysOnLine c := by
  have hne : c ≠ '\n' ∧ c ≠ '\r' := by
    constructor
    . rintro rfl
      cases h
    . rintro rfl
      cases h
  simp [staysOnLine, hne]

theorem Atom.staysOnLine_source {atom : Atom} (h : atom.isTidy)
    : ∀ c ∈ atom.source, staysOnLine c := by
  intro c hc
  cases atom with
  | plain text => exact staysOnLine_of_not_isBlank (not_isBlank_of_isKeyChar ((mem_of_isTidy_plain h).2 c hc))
  | quoted text =>
    change c ∈ '"' :: (text.toList.flatMap escape ++ ['"']) at hc
    simp only [List.mem_cons, List.mem_append, List.mem_flatMap, List.not_mem_nil, or_false] at hc
    obtain hopen | ⟨d, _, hd⟩ | hclose := hc
    . rw [hopen]
      rfl
    . exact staysOnLine_escape d c hd
    . rw [hclose]
      rfl

theorem staysOnLine_entrySource {key : Atom} {value : Option Atom} (h : isTidyEntry key value)
    : ∀ c ∈ entrySource key value, staysOnLine c := by
  intro c hc
  unfold entrySource at hc
  rw [List.mem_append, List.mem_cons] at hc
  obtain hkey | hcolon | hvalue := hc
  . exact Atom.staysOnLine_source (isTidyEntry_key h) c hkey
  . rw [hcolon]
    rfl
  . cases value with
    | none => cases hvalue
    | some value =>
      cases hvalue with
      | head => rfl
      | tail _ hvalue => exact Atom.staysOnLine_source (isTidyEntry_value h) c hvalue

theorem Row.staysOnLine_source {row : Row} (h : row.isTidy)
    : ∀ c ∈ row.source, staysOnLine c := by
  intro c hc
  unfold source at hc
  rw [List.mem_append] at hc
  cases hc with
  | inl hindent =>
    rw [List.eq_of_mem_replicate hindent]
    rfl
  | inr hcontent =>
    cases row with
    | entry indent key value => exact staysOnLine_entrySource h c hcontent
    | item indent body =>
      cases hcontent with
      | head => rfl
      | tail _ hbody =>
        cases body with
        | empty => cases hbody
        | atom value =>
          cases hbody with
          | head => rfl
          | tail _ hvalue => exact Atom.staysOnLine_source h c hvalue
        | entry key value =>
          cases hbody with
          | head => rfl
          | tail _ hentry => exact staysOnLine_entrySource h c hentry

theorem readsAs_write {rows : List Row} (h : ∀ row ∈ rows, row.isTidy)
    : ReadsAs (write rows) rows.length fun number => linesFrom number rows := by
  induction rows with
  | nil => exact ReadsAs.nil
  | cons row rows ih =>
    have hrow := h row (List.mem_cons_self ..)
    have hrows : ∀ other ∈ rows, other.isTidy := by
      intro other hother
      exact h other (List.mem_cons_of_mem row hother)
    have hfirst := ReadsAs.single (Row.staysOnLine_source hrow) (Row.readLine_source hrow)
    have hall := hfirst.append (ih hrows)
    rw [Nat.add_comm] at hall
    exact hall

end Runbook.Source
