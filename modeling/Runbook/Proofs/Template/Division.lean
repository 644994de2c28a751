import Runbook.Proofs.Template.Placeholder

/-!
This module contains the division of a text at its placeholders, stated without a scan: every part
that has the shape of a placeholder is one of its pieces, at the very place where it stands. Every
text has exactly one such division, and it is rendered by filling in each piece once. A text that is
one placeholder from end to end may stand for a value of any type, and has the text of that value.
-/

namespace Runbook.Template

open Text

/-- A placeholder of a divided text, and the text from there to the next one. -/
structure Part where
  path : Path
  source : List Char
  literal : List Char

/-- A text that is divided at placeholders. -/
structure Division where
  lead : List Char
  parts : List Part

def pathText : Path → List Char
  | [] => []
  | root :: more => root ++ segmentsText more

/-- What stands in the place of a placeholder: the text of the value at its path. -/
def Part.filled (policy : MissingPolicy) (vars : Json.Fields) (part : Part) : List Char :=
  match lookup vars (String.ofList (pathText part.path)) with
  | some value => valueText value
  | none => match policy with
    | .empty => []
    | .keep => part.source

namespace Division

def text (d : Division) : List Char :=
  d.lead ++ d.parts.flatMap fun part => part.source ++ part.literal

/-- A division with each of its placeholders replaced, and the text around them as it is. -/
def filled (policy : MissingPolicy) (vars : Json.Fields) (d : Division) : List Char :=
  d.lead ++ d.parts.flatMap fun part => part.filled policy vars ++ part.literal

/-- A division that has a placeholder for a path, written as a word, behind some text. -/
inductive HasPart (path : Path) (word : List Char) : Division → List Char → Prop where
  | here {lead literal : List Char} {parts : List Part}
    : HasPart path word ⟨lead, ⟨path, word, literal⟩ :: parts⟩ lead
  | behind {lead before : List Char} {part : Part} {parts : List Part}
      (h : HasPart path word ⟨part.literal, parts⟩ before)
    : HasPart path word ⟨lead, part :: parts⟩ (lead ++ part.source ++ before)

/-- A division of a text at all of its parts that are placeholders, and nowhere else. -/
structure Divides (d : Division) (s : List Char) : Prop where
  text_eq : d.text = s
  hasPart_iff : ∀ path before word after, before ++ word ++ after = s →
    (HasPart path word d before ↔ IsPlaceholder path word)

variable {d : Division} {path : Path} {word before lead : List Char} {part : Part}
  {parts : List Part}

theorem not_hasPart_nil : ¬ HasPart path word ⟨lead, []⟩ before := by
  intro h
  cases h

theorem hasPart_cons_iff
    : HasPart path word ⟨lead, part :: parts⟩ before
        ↔
      (before = lead ∧ part.path = path ∧ part.source = word) ∨
        (∃ behind, before = lead ++ part.source ++ behind ∧
          HasPart path word ⟨part.literal, parts⟩ behind) := by
  constructor
  . intro h
    cases h with
    | here => exact .inl ⟨rfl, rfl, rfl⟩
    | behind h => exact .inr ⟨_, rfl, h⟩
  . rintro (⟨rfl, rfl, rfl⟩ | ⟨behind, rfl, h⟩)
    . exact .here
    . exact .behind h

theorem hasPart_lead_iff {c : Char}
    : HasPart path word ⟨c :: lead, parts⟩ before
        ↔
      ∃ behind, before = c :: behind ∧ HasPart path word ⟨lead, parts⟩ behind := by
  cases parts with
  | nil =>
    constructor
    . exact fun h => (not_hasPart_nil h).elim
    . exact fun ⟨_, _, h⟩ => (not_hasPart_nil h).elim
  | cons part parts =>
    simp only [hasPart_cons_iff]
    constructor
    . rintro (⟨rfl, heq⟩ | ⟨behind, rfl, h⟩)
      . exact ⟨lead, rfl, .inl ⟨rfl, heq⟩⟩
      . exact ⟨_, rfl, .inr ⟨behind, rfl, h⟩⟩
    . rintro ⟨_, rfl, ⟨rfl, heq⟩ | ⟨behind, rfl, h⟩⟩
      . exact .inl ⟨rfl, heq⟩
      . exact .inr ⟨behind, rfl, h⟩

theorem text_cons
    : text ⟨lead, part :: parts⟩ = lead ++ part.source ++ text ⟨part.literal, parts⟩ := by
  simp [text]

theorem text_lead {c : Char} : text ⟨c :: lead, parts⟩ = c :: text ⟨lead, parts⟩ := rfl

theorem Divides.isPlaceholder {s : List Char} (h : Divides ⟨lead, part :: parts⟩ s)
    : IsPlaceholder part.path part.source := by
  have hs := h.text_eq
  rw [text_cons] at hs
  exact (h.hasPart_iff part.path lead part.source _ hs).mp .here

theorem divides_nil_iff : Divides d [] ↔ d = ⟨[], []⟩ := by
  constructor
  . intro h
    obtain ⟨lead, parts⟩ := d
    have hs := h.text_eq
    cases parts with
    | nil => simpa [text] using hs
    | cons part parts =>
      rw [text_cons, List.append_eq_nil_iff, List.append_eq_nil_iff] at hs
      exact absurd hs.1.2 h.isPlaceholder.ne_nil
  . intro hd
    subst hd
    refine ⟨rfl, fun path before word after hs => ⟨fun h => (not_hasPart_nil h).elim, fun h => ?_⟩⟩
    rw [List.append_eq_nil_iff, List.append_eq_nil_iff] at hs
    exact absurd hs.1.2 h.ne_nil

theorem Divides.eq_append {text rest : List Char} (h : Divides d (text ++ rest))
    (hp : IsPlaceholder path text)
    : ∃ literal parts, d = ⟨[], ⟨path, text, literal⟩ :: parts⟩ := by
  obtain ⟨lead, parts⟩ := d
  have hfirst : HasPart path text ⟨lead, parts⟩ [] := (h.hasPart_iff path [] text rest rfl).mpr hp
  cases parts with
  | nil => exact (not_hasPart_nil hfirst).elim
  | cons part parts =>
    rw [hasPart_cons_iff] at hfirst
    obtain ⟨rfl, rfl, rfl⟩ | ⟨behind, hnil, _⟩ := hfirst
    . exact ⟨part.literal, parts, rfl⟩
    . rw [eq_comm, List.append_eq_nil_iff, List.append_eq_nil_iff] at hnil
      exact absurd hnil.1.2 h.isPlaceholder.ne_nil

theorem divides_append_iff {text literal rest : List Char} (hp : IsPlaceholder path text)
    : Divides ⟨[], ⟨path, text, literal⟩ :: parts⟩ (text ++ rest)
        ↔
      Divides ⟨literal, parts⟩ rest := by
  have hparts (other : Path) (word before : List Char)
      : HasPart other word ⟨[], ⟨path, text, literal⟩ :: parts⟩ (text ++ before)
          ↔
        HasPart other word ⟨literal, parts⟩ before := by
    simp [hasPart_cons_iff, hp.ne_nil]
  constructor
  . intro h
    refine ⟨?_, fun other before word after hs => ?_⟩
    . have hs := h.text_eq
      rw [text_cons] at hs
      exact List.append_cancel_left hs
    . rw [← hparts]
      apply h.hasPart_iff other (text ++ before) word after
      rw [← hs, List.append_assoc, List.append_assoc, List.append_assoc]
  . intro h
    refine ⟨?_, fun other before word after hs => ?_⟩
    . rw [text_cons, h.text_eq]
      rfl
    . constructor
      . intro hpart
        rw [hasPart_cons_iff] at hpart
        obtain ⟨rfl, rfl, rfl⟩ | ⟨behind, rfl, hpart⟩ := hpart
        . exact hp
        . refine (h.hasPart_iff other behind word after ?_).mp hpart
          rw [List.nil_append, List.append_assoc, List.append_assoc] at hs
          rw [List.append_assoc]
          exact List.append_cancel_left hs
      . intro hword
        -- no placeholder reaches from the first piece into the rest
        obtain ⟨rfl, rfl, rfl⟩ | ⟨behind, rfl, hrest⟩ := hword.append_cases hp hs
        . exact .here
        . rw [hparts, h.hasPart_iff other behind word after hrest]
          exact hword

theorem Divides.eq_cons {c : Char} {cs : List Char} (h : Divides d (c :: cs))
    (hnone : placeholder? (c :: cs) = none)
    : ∃ lead, d = ⟨c :: lead, d.parts⟩ := by
  obtain ⟨lead, parts⟩ := d
  have hs := h.text_eq
  cases lead with
  | cons d lead =>
    rw [text_lead, List.cons.injEq] at hs
    rw [hs.1]
    exact ⟨lead, rfl⟩
  | nil =>
    cases parts with
    | nil => cases hs
    | cons part parts =>
      rw [text_cons, List.nil_append] at hs
      rw [← hs, h.isPlaceholder.placeholder?] at hnone
      cases hnone

theorem divides_cons_iff {c : Char} {cs : List Char} (hnone : placeholder? (c :: cs) = none)
    : Divides ⟨c :: lead, parts⟩ (c :: cs) ↔ Divides ⟨lead, parts⟩ cs := by
  constructor
  . intro h
    refine ⟨?_, fun path before word after hs => ?_⟩
    . have hs := h.text_eq
      rw [text_lead] at hs
      exact List.tail_eq_of_cons_eq hs
    . rw [← h.hasPart_iff path (c :: before) word after (by rw [← hs]; rfl), hasPart_lead_iff]
      simp
  . intro h
    refine ⟨?_, fun path before word after hs => ?_⟩
    . rw [text_lead, h.text_eq]
    . rw [hasPart_lead_iff]
      cases before with
      | nil =>
        constructor
        . exact fun ⟨_, hnil, _⟩ => nomatch hnil
        . intro hword
          rw [← hs, List.nil_append, hword.placeholder?] at hnone
          cases hnone
      | cons d before =>
        rw [List.cons_append, List.cons_append, List.cons.injEq] at hs
        simp [hs.1, h.hasPart_iff path before word after hs.2]

def ofFragments : List (Fragment Path) → Division
  | [] => ⟨[], []⟩
  | .char c :: rest => ⟨c :: (ofFragments rest).lead, (ofFragments rest).parts⟩
  | .found path source :: rest =>
    ⟨[], ⟨path, source, (ofFragments rest).lead⟩ :: (ofFragments rest).parts⟩

/-- The scan of a text finds its only division. -/
theorem divides_iff {s : List Char} : Divides d s ↔ d = ofFragments (fragments s) := by
  -- existence and uniqueness go together: the first piece is forced, and leaves a division of the
  -- rest
  induction s using fragments_induction generalizing d with
  | nil => exact divides_nil_iff
  | found path text rest hp hfragments ih =>
    rw [hfragments, ofFragments]
    constructor
    . intro h
      obtain ⟨literal, parts, rfl⟩ := h.eq_append hp
      rw [divides_append_iff hp, ih] at h
      rw [← h]
    . intro hd
      rw [hd, divides_append_iff hp, ih]
  | char c cs hnone hfragments ih =>
    rw [hfragments, ofFragments]
    constructor
    . intro h
      obtain ⟨lead, hd⟩ := h.eq_cons hnone
      rw [hd, divides_cons_iff hnone, ih] at h
      rw [hd, ← h]
    . intro hd
      rw [hd, divides_cons_iff hnone, ih]

end Division

section Lookup

theorem splitPoints_append {piece s next : List Char} {more : Path} (hpiece : '.' ∉ piece)
    (hs : splitPoints s = next :: more)
    : splitPoints (piece ++ s) = (piece ++ next) :: more := by
  induction piece with
  | nil => exact hs
  | cons c piece ih =>
    rw [List.mem_cons, not_or] at hpiece
    rw [List.cons_append, splitPoints, if_neg (Ne.symm hpiece.1), ih hpiece.2]
    rfl

theorem splitPoints_segmentsText {more : Path} (h : ∀ segment ∈ more, '.' ∉ segment)
    : splitPoints (segmentsText more) = [] :: more := by
  induction more with
  | nil => rfl
  | cons segment more ih =>
    obtain ⟨hsegment, hmore⟩ := List.forall_mem_cons.mp h
    have hrest := splitPoints_append hsegment (ih hmore)
    rw [List.append_nil] at hrest
    simp only [segmentsText, List.flatMap_cons, List.cons_append, splitPoints]
    rw [if_pos trivial, ← hrest]
    rfl

theorem IsPath.eq_pathText {path : Path} {inner : List Char} (h : IsPath path inner)
    : inner = pathText path := by
  cases h
  rfl

theorem IsPath.splitPoints {path : Path} {inner : List Char} (h : IsPath path inner)
    : splitPoints inner = path := by
  cases h with
  | @mk c cs more hstarts hname hsegments =>
    have hroot : ∀ d ∈ c :: cs, isNameChar d :=
      List.forall_mem_cons.mpr ⟨isNameChar_of_startsName hstarts, hname⟩
    have hmore : ∀ segment ∈ more, '.' ∉ segment :=
      fun segment hsegment => not_mem_of_isNameChar (hsegments segment hsegment).2 (by decide)
    have hsplit := splitPoints_append (not_mem_of_isNameChar hroot (by decide))
      (splitPoints_segmentsText hmore)
    rw [hsplit, List.append_nil]

theorem IsPlaceholder.lookup_pathText {path : Path} {text : List Char}
    (h : IsPlaceholder path text) (vars : Json.Fields)
    : lookup vars (String.ofList (pathText path)) = lookupPath vars path := by
  cases h with
  | mk _ hpath _ =>
    unfold lookup
    rw [String.toList_ofList, ← hpath.eq_pathText, hpath.splitPoints]

end Lookup

variable (policy : MissingPolicy) (vars : Json.Fields)

theorem renderFragment_found {path : Path} {source : List Char} (h : IsPlaceholder path source)
    (literal : List Char)
    : renderFragment policy vars (.found path source)
        =
      Part.filled policy vars ⟨path, source, literal⟩ := by
  unfold Part.filled
  rw [h.lookup_pathText vars]
  unfold renderFragment
  rfl

theorem Division.filled_ofFragments {pieces : List (Fragment Path)}
    (h : ∀ path source, .found path source ∈ pieces → IsPlaceholder path source)
    : (ofFragments pieces).filled policy vars = pieces.flatMap (renderFragment policy vars) := by
  induction pieces with
  | nil => rfl
  | cons piece pieces ih =>
    have hrest := ih fun path source hmem => h path source (List.mem_cons_of_mem _ hmem)
    rw [List.flatMap_cons, ← hrest]
    cases piece with
    | char c => rfl
    | found path source =>
      rw [renderFragment_found policy vars (h path source List.mem_cons_self)
        (ofFragments pieces).lead]
      simp [ofFragments, filled]

/--
Rendering is a single pass: a text has exactly one division at all of its placeholders, and it is
rendered by putting the text of a value in the place of each of them. What is put in is not looked
at again.
-/
theorem render_single_pass (text : String)
    : ∃ d : Division,
        (∀ other : Division, other.Divides text.toList ↔ other = d) ∧
        render policy vars text = String.ofList (d.filled policy vars) := by
  refine ⟨.ofFragments (fragments text.toList), fun other => Division.divides_iff, ?_⟩
  unfold render renderChars
  rw [Division.filled_ofFragments]
  intro path source hmem
  exact (mem_fragments_iff.mp hmem).1

example
    : render .keep [("a", .str "\x7bb\x7d"), ("b", .int 1)] "\x7ba\x7d: \x7b b \x7d"
        =
      "\x7bb\x7d: 1" := by
  cbv

/--
A template as a value has the text that it has as a text: the type of a single placeholder is kept,
and with it nothing changes in what the placeholder stands for.
-/
theorem valueText_resolveText (text : String)
    : String.ofList (valueText (resolveText policy vars text)) = render policy vars text := by
  unfold resolveText
  split
  . next path hwhole =>
    have hfragments := (wholePlaceholder?_eq_some_iff.mp hwhole).fragments
    unfold render renderChars renderFragment
    rw [hfragments, List.flatMap_singleton]
    dsimp only
    cases lookupPath vars path with
    | some value => rfl
    | none =>
      cases policy with
      | empty => rfl
      | keep => simp [valueText]
  . simp [valueText]

end Runbook.Template
