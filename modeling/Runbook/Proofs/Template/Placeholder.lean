import Mathlib.Data.List.TakeWhile
import Runbook.Proofs.Source.Atom
import Runbook.Template

/-!
This module contains the shape of placeholders, and the proof that a template is divided at exactly
those of its parts that have this shape: no placeholder begins within another one, so that none is
passed over.
-/

namespace Runbook.Template

open Text

def IsSegment (segment : List Char) : Prop :=
  segment ≠ [] ∧ ∀ c ∈ segment, isNameChar c

def segmentsText (more : Path) : List Char :=
  more.flatMap ('.' :: ·)

/-- A path and its text, with the segments between points. -/
inductive IsPath : Path → List Char → Prop where
  | mk {c : Char} {cs : List Char} {more : Path} (starts : startsName c)
      (name : ∀ d ∈ cs, isNameChar d) (segments : ∀ s ∈ more, IsSegment s)
      : IsPath ((c :: cs) :: more) (c :: cs ++ segmentsText more)

/-- A path and a placeholder that is written for it. -/
inductive IsPlaceholder (path : Path) : List Char → Prop where
  | mk {before inner after : List Char} (before_blank : ∀ c ∈ before, isBlank c)
      (isPath : IsPath path inner) (after_blank : ∀ c ∈ after, isBlank c)
      : IsPlaceholder path ('\x7b' :: before ++ inner ++ after ++ ['\x7d'])

section Characters

variable {c : Char}

theorem isKeyChar_of_isNameChar (h : isNameChar c) : Source.isKeyChar c := by
  unfold isNameChar at h
  simp only [Bool.or_eq_true, decide_eq_true_eq] at h
  obtain (h | h) | h := h
  . simp [Source.isKeyChar, isAlphanumeric_of_isAlphanum h]
  . simp [Source.isKeyChar, h]
  . simp [Source.isKeyChar, h]

theorem isNameChar_of_startsName (h : startsName c) : isNameChar c := by
  unfold startsName at h
  rw [Bool.or_eq_true] at h
  unfold isNameChar Char.isAlphanum
  cases h with
  | inl h => simp [h]
  | inr h => simp [h]

theorem not_isBlank_of_isNameChar (h : isNameChar c) : isBlank c = false :=
  Source.not_isBlank_of_isKeyChar (isKeyChar_of_isNameChar h)

theorem not_isNameChar_of_isBlank (h : isBlank c) : isNameChar c = false := by
  rw [Bool.eq_false_iff]
  intro hname
  rw [not_isBlank_of_isNameChar hname] at h
  cases h

theorem ne_of_isNameChar {d : Char} (h : isNameChar c) (hd : isNameChar d = false) : c ≠ d := by
  intro hc
  rw [hc, hd] at h
  cases h

theorem not_mem_of_isNameChar {d : Char} {s : List Char} (h : ∀ c ∈ s, isNameChar c)
    (hd : isNameChar d = false)
    : d ∉ s :=
  fun hmem => ne_of_isNameChar (h d hmem) hd rfl

theorem ne_of_isBlank {d : Char} (h : isBlank c) (hd : isBlank d = false) : c ≠ d := by
  intro hc
  rw [hc, hd] at h
  cases h

end Characters

def EndsPath (s : List Char) : Prop :=
  ∀ c ∈ s.head?, isNameChar c = false ∧ c ≠ '.'

theorem endsPath_of_blanks {after : List Char} (h : ∀ c ∈ after, isBlank c) (rest : List Char)
    : EndsPath (after ++ '\x7d' :: rest) := by
  intro c hc
  cases after with
  | nil =>
    simp only [List.nil_append, List.head?_cons, Option.mem_def, Option.some.injEq] at hc
    subst hc
    decide
  | cons d after =>
    simp only [List.cons_append, List.head?_cons, Option.mem_def, Option.some.injEq] at hc
    subst hc
    have hd : isBlank d := h d List.mem_cons_self
    exact ⟨not_isNameChar_of_isBlank hd, ne_of_isBlank hd (by decide)⟩

theorem span_name {name s : List Char} (hname : ∀ c ∈ name, isNameChar c)
    (hs : ∀ c ∈ s.head?, isNameChar c = false)
    : (name ++ s).takeWhile isNameChar = name ∧ (name ++ s).dropWhile isNameChar = s := by
  rw [List.takeWhile_append_of_pos hname, List.dropWhile_append_of_pos hname]
  cases s with
  | nil => simp
  | cons c cs =>
    have hc : ¬ isNameChar c = true := by
      rw [Bool.not_eq_true]
      exact hs c rfl
    rw [List.takeWhile_cons_of_neg hc, List.dropWhile_cons_of_neg hc]
    exact ⟨List.append_nil name, rfl⟩

theorem segmentsText_ends (more : Path) {s : List Char} (h : EndsPath s)
    : ∀ c ∈ (segmentsText more ++ s).head?, isNameChar c = false := by
  cases more with
  | nil => exact fun c hc => (h c hc).1
  | cons segment more =>
    intro c hc
    simp only [segmentsText, List.flatMap_cons, List.cons_append, List.head?_cons, Option.mem_def,
      Option.some.injEq] at hc
    subst hc
    decide

theorem readSegments_segmentsText {more : Path} (hmore : ∀ s ∈ more, IsSegment s) {s : List Char}
    (h : EndsPath s)
    : readSegments (segmentsText more ++ s) = (more, s) := by
  induction more with
  | nil =>
    rw [segmentsText, List.flatMap_nil, List.nil_append]
    unfold readSegments
    split
    . exact absurd rfl (h '.' rfl).2
    . rfl
  | cons segment more ih =>
    obtain ⟨⟨hne, hchars⟩, hrest⟩ := List.forall_mem_cons.mp hmore
    obtain ⟨c, cs, rfl⟩ := List.exists_cons_of_ne_nil hne
    obtain ⟨hc, hcs⟩ := List.forall_mem_cons.mp hchars
    have hspan := span_name hcs (segmentsText_ends more h)
    have htext : segmentsText ((c :: cs) :: more) ++ s
        = '.' :: c :: (cs ++ (segmentsText more ++ s)) := by
      simp [segmentsText]
    rw [htext, readSegments, if_pos hc, hspan.1, hspan.2, ih hrest]

theorem eq_of_readSegments {s rest : List Char} {more : Path} (h : readSegments s = (more, rest))
    : s = segmentsText more ++ rest ∧ ∀ segment ∈ more, IsSegment segment := by
  fun_induction readSegments s generalizing more rest with
  | case1 c s hc more' last hread ih =>
    simp only [Prod.mk.injEq] at h
    obtain ⟨rfl, rfl⟩ := h
    obtain ⟨hdrop, hsegments⟩ := ih hread
    have hname : ∀ d ∈ c :: s.takeWhile isNameChar, isNameChar d := by
      rw [List.forall_mem_cons]
      exact ⟨hc, fun d hd => List.mem_takeWhile_imp hd⟩
    refine ⟨?_, List.forall_mem_cons.mpr ⟨⟨List.cons_ne_nil _ _, hname⟩, hsegments⟩⟩
    have hs := List.takeWhile_append_dropWhile (p := isNameChar) (l := s)
    rw [hdrop] at hs
    simpa [segmentsText] using hs.symm
  | case2 c s hc =>
    simp only [Prod.mk.injEq] at h
    obtain ⟨rfl, rfl⟩ := h
    exact ⟨rfl, List.forall_mem_nil _⟩
  | case3 s hs =>
    simp only [Prod.mk.injEq] at h
    obtain ⟨rfl, rfl⟩ := h
    exact ⟨rfl, List.forall_mem_nil _⟩

theorem IsPath.readPath? {path : Path} {inner s : List Char} (h : IsPath path inner)
    (hs : EndsPath s)
    : readPath? (inner ++ s) = some (path, s) := by
  cases h with
  | @mk c cs more hstarts hname hsegments =>
    have hspan := span_name hname (segmentsText_ends more hs)
    rw [List.append_assoc, List.cons_append]
    rw [Template.readPath?, if_pos hstarts]
    rw [hspan.1, hspan.2, readSegments_segmentsText hsegments hs]

theorem isPath_of_readPath? {s rest : List Char} {path : Path} (h : readPath? s = some (path, rest))
    : ∃ inner, s = inner ++ rest ∧ IsPath path inner := by
  unfold readPath? at h
  split at h
  . next c s =>
    split at h
    . next hc =>
      simp only [Option.some.injEq, Prod.mk.injEq] at h
      obtain ⟨rfl, rfl⟩ := h
      obtain ⟨hdrop, hsegments⟩ := eq_of_readSegments (s := s.dropWhile isNameChar) rfl
      refine ⟨_, ?_, .mk hc (fun d hd => List.mem_takeWhile_imp hd) hsegments⟩
      rw [List.append_assoc, ← hdrop, List.cons_append, List.takeWhile_append_dropWhile]
    . cases h
  . cases h

theorem trimStart_append {blanks s : List Char} (h : ∀ c ∈ blanks, isBlank c)
    (hs : ∀ c ∈ s.head?, isBlank c = false)
    : trimStart (blanks ++ s) = s := by
  unfold trimStart
  rw [List.dropWhile_append_of_pos h]
  cases s with
  | nil => rfl
  | cons c cs =>
    rw [List.dropWhile_cons_of_neg]
    rw [Bool.not_eq_true]
    exact hs c rfl

theorem IsPath.not_isBlank_head? {path : Path} {inner : List Char} (h : IsPath path inner)
    (s : List Char)
    : ∀ c ∈ (inner ++ s).head?, isBlank c = false := by
  intro c hc
  cases h with
  | mk hstarts =>
    simp only [List.cons_append, List.head?_cons, Option.mem_def, Option.some.injEq] at hc
    subst hc
    exact not_isBlank_of_isNameChar (isNameChar_of_startsName hstarts)

theorem IsPlaceholder.placeholder? {path : Path} {text : List Char} (h : IsPlaceholder path text)
    (rest : List Char)
    : placeholder? (text ++ rest) = some (path, text.length) := by
  cases h with
  | @mk before inner after hbefore hpath hafter =>
    have hread := hpath.readPath? (endsPath_of_blanks hafter rest)
    have hinner : trimStart (before ++ (inner ++ (after ++ '\x7d' :: rest)))
        = inner ++ (after ++ '\x7d' :: rest) :=
      trimStart_append hbefore (hpath.not_isBlank_head? _)
    have hclose : trimStart (after ++ '\x7d' :: rest) = '\x7d' :: rest := by
      apply trimStart_append hafter
      simp only [List.head?_cons, Option.mem_def, Option.some.injEq, forall_eq']
      decide
    have htext : '\x7b' :: before ++ inner ++ after ++ ['\x7d'] ++ rest
        = '\x7b' :: (before ++ (inner ++ (after ++ '\x7d' :: rest))) := by simp
    have hlength : ('\x7b' :: (before ++ (inner ++ (after ++ '\x7d' :: rest)))).length - rest.length
        = ('\x7b' :: before ++ inner ++ after ++ ['\x7d']).length := by
      simp only [List.length_cons, List.length_append, List.length_nil]
      omega
    rw [htext, ← hlength]
    simp only [Template.placeholder?, hinner, hread, hclose]

theorem isPlaceholder_of_placeholder? {s : List Char} {path : Path} {n : Nat}
    (h : placeholder? s = some (path, n))
    : ∃ text rest, s = text ++ rest ∧ n = text.length ∧ IsPlaceholder path text := by
  unfold placeholder? at h
  split at h
  . next s =>
    split at h
    . next behind hread =>
      split at h
      . next rest hclose =>
        simp only [Option.some.injEq, Prod.mk.injEq] at h
        obtain ⟨rfl, rfl⟩ := h
        obtain ⟨inner, hinner, hpath⟩ := isPath_of_readPath? hread
        have hbefore : s.takeWhile isBlank ++ (inner ++ behind) = s := by
          rw [← hinner]
          exact List.takeWhile_append_dropWhile
        have hafter : behind.takeWhile isBlank ++ '\x7d' :: rest = behind := by
          rw [← hclose]
          exact List.takeWhile_append_dropWhile
        have hs : '\x7b' :: s
            = '\x7b' :: s.takeWhile isBlank ++ inner ++ behind.takeWhile isBlank ++
              ['\x7d'] ++ rest := by
          conv_lhs => rw [← hbefore, ← hafter]
          simp
        refine ⟨_, rest, hs, ?_, .mk ?_ hpath ?_⟩
        . rw [hs, List.length_append, Nat.add_sub_cancel]
        . exact fun c hc => List.mem_takeWhile_imp hc
        . exact fun c hc => List.mem_takeWhile_imp hc
      . cases h
    . cases h
  . cases h

theorem IsPath.not_mem {path : Path} {inner : List Char} (h : IsPath path inner) {brace : Char}
    (hname : isNameChar brace = false) (hpoint : brace ≠ '.')
    : brace ∉ inner := by
  intro hmem
  cases h with
  | @mk c cs more hstarts hcs hsegments =>
    rw [List.mem_append, segmentsText, List.mem_flatMap] at hmem
    obtain hmem | ⟨segment, hsegment, hmem⟩ := hmem
    . have hall : ∀ d ∈ c :: cs, isNameChar d :=
        List.forall_mem_cons.mpr ⟨isNameChar_of_startsName hstarts, hcs⟩
      exact not_mem_of_isNameChar hall hname hmem
    . rw [List.mem_cons] at hmem
      cases hmem with
      | inl hmem => exact hpoint hmem
      | inr hmem => exact not_mem_of_isNameChar (hsegments segment hsegment).2 hname hmem

theorem IsPlaceholder.eq_cons {path : Path} {text : List Char} (h : IsPlaceholder path text)
    : ∃ tail, text = '\x7b' :: tail ∧ '\x7b' ∉ tail := by
  cases h with
  | @mk before inner after hbefore hpath hafter =>
    refine ⟨before ++ inner ++ after ++ ['\x7d'], rfl, ?_⟩
    simp only [List.mem_append, List.mem_singleton, not_or]
    refine ⟨⟨⟨?_, ?_⟩, ?_⟩, by decide⟩
    . exact fun hmem => ne_of_isBlank (hbefore _ hmem) (by decide) rfl
    . exact hpath.not_mem (by decide) (by decide)
    . exact fun hmem => ne_of_isBlank (hafter _ hmem) (by decide) rfl

theorem IsPlaceholder.ne_nil {path : Path} {text : List Char} (h : IsPlaceholder path text)
    : text ≠ [] := by
  obtain ⟨tail, htext, _⟩ := h.eq_cons
  rw [htext]
  exact List.cons_ne_nil _ _

theorem fragments_nil : fragments [] = [] := rfl

theorem fragments_cons (c : Char) (cs : List Char)
    : (∃ path text rest,
        c :: cs = text ++ rest ∧
        IsPlaceholder path text ∧
        fragments (c :: cs) = .found path text :: fragments rest) ∨
      (placeholder? (c :: cs) = none ∧ fragments (c :: cs) = .char c :: fragments cs) := by
  cases hfind : placeholder? (c :: cs) with
  | none =>
    right
    refine ⟨rfl, ?_⟩
    unfold fragments cut
    rw [cut.go, hfind]
  | some found =>
    left
    obtain ⟨path, n⟩ := found
    obtain ⟨text, rest, hs, rfl, hplaceholder⟩ := isPlaceholder_of_placeholder? hfind
    refine ⟨path, text, rest, hs, hplaceholder, ?_⟩
    obtain ⟨tail, rfl, _⟩ := hplaceholder.eq_cons
    rw [List.cons_append, List.cons.injEq] at hs
    obtain ⟨rfl, rfl⟩ := hs
    unfold fragments cut
    rw [cut.go, hfind]
    dsimp only [List.length_cons]
    rw [cut.go_eq, List.take_left, List.drop_left]
    rfl

theorem IsPlaceholder.unique {path other : Path} {text word rest more : List Char}
    (h : IsPlaceholder path text) (h' : IsPlaceholder other word)
    (heq : text ++ rest = word ++ more)
    : path = other ∧ text = word := by
  have hfind := h.placeholder? rest
  rw [heq, h'.placeholder? more] at hfind
  simp only [Option.some.injEq, Prod.mk.injEq] at hfind
  exact ⟨hfind.1.symm, (List.append_inj heq hfind.2.symm).1⟩

theorem IsPlaceholder.append_cases {path other : Path} {text word before after rest : List Char}
    (h : IsPlaceholder path text) (h' : IsPlaceholder other word)
    (heq : before ++ text ++ after = word ++ rest)
    : (before = [] ∧ path = other ∧ text = word) ∨
      (∃ between, before = word ++ between ∧ between ++ text ++ after = rest) := by
  obtain ⟨tail, htext, _⟩ := h.eq_cons
  obtain ⟨tail', hword, hopen⟩ := h'.eq_cons
  rw [List.append_assoc] at heq
  cases before with
  | nil =>
    left
    exact ⟨rfl, h.unique h' heq⟩
  | cons d before =>
    right
    rw [List.append_eq_append_iff] at heq
    obtain ⟨within, hwithin, hrest⟩ | ⟨between, hbetween, hrest⟩ := heq
    . cases within with
      | nil =>
        rw [List.append_nil] at hwithin
        exact ⟨[], by rw [hwithin, List.append_nil], by simpa using hrest⟩
      | cons e within =>
        -- the brace that opens the one placeholder would stand within the other one
        rw [htext, List.cons_append, List.cons_append, List.cons.injEq] at hrest
        rw [hword, List.cons_append, List.cons.injEq, ← hrest.1] at hwithin
        rw [hwithin.2] at hopen
        simp at hopen
    . refine ⟨between, hbetween, ?_⟩
      rw [List.append_assoc, hrest]

theorem fragments_induction {motive : List Char → Prop} (nil : motive [])
    (found : ∀ path text rest, IsPlaceholder path text →
      fragments (text ++ rest) = .found path text :: fragments rest →
      motive rest → motive (text ++ rest))
    (char : ∀ c cs, placeholder? (c :: cs) = none →
      fragments (c :: cs) = .char c :: fragments cs → motive cs → motive (c :: cs))
    (s : List Char)
    : motive s := by
  induction hlength : s.length using Nat.strong_induction_on generalizing s with
  | h length ih =>
    cases s with
    | nil => exact nil
    | cons c cs =>
      obtain ⟨path, text, rest, hs, hplaceholder, hfragments⟩ | ⟨hnone, hfragments⟩ :=
        fragments_cons c cs
      . have hshorter : rest.length < length := by
          have htext : 0 < text.length := List.length_pos_iff.mpr hplaceholder.ne_nil
          rw [← hlength, hs, List.length_append]
          omega
        rw [hs] at hfragments ⊢
        exact found path text rest hplaceholder hfragments (ih rest.length hshorter rest rfl)
      . have hshorter : cs.length < length := by
          rw [← hlength]
          exact Nat.lt_succ_self _
        exact char c cs hnone hfragments (ih cs.length hshorter cs rfl)

theorem mem_fragments_iff {s text : List Char} {path : Path}
    : .found path text ∈ fragments s
        ↔
      IsPlaceholder path text ∧ text <:+: s := by
  induction s using fragments_induction with
  | nil =>
    rw [fragments_nil, List.infix_nil]
    constructor
    . exact fun h => nomatch h
    . intro ⟨h, hnil⟩
      exact absurd hnil h.ne_nil
  | found other word rest hother hfragments ih =>
    rw [hfragments, List.mem_cons, ih, Fragment.found.injEq]
    constructor
    . intro hmem
      cases hmem with
      | inl heq =>
        rw [heq.1, heq.2]
        exact ⟨hother, (List.prefix_append word rest).isInfix⟩
      | inr hmem => exact ⟨hmem.1, hmem.2.trans (List.suffix_append word rest).isInfix⟩
    . intro ⟨h, before, after, hin⟩
      obtain ⟨_, heq⟩ | ⟨between, _, hrest⟩ := h.append_cases hother hin
      . exact .inl heq
      . exact .inr ⟨h, between, after, hrest⟩
  | char c cs hnone hfragments ih =>
    rw [hfragments, List.mem_cons, ih, List.infix_cons_iff]
    constructor
    . intro hmem
      cases hmem with
      | inl heq => cases heq
      | inr hmem => exact ⟨hmem.1, .inr hmem.2⟩
    . intro ⟨h, hin⟩
      cases hin with
      | inl hprefix =>
        obtain ⟨rest, hrest⟩ := hprefix
        rw [← hrest, h.placeholder? rest] at hnone
        cases hnone
      | inr hin => exact .inr ⟨h, hin⟩

theorem wholePlaceholder?_eq_some_iff {s : List Char} {path : Path}
    : wholePlaceholder? s = some path ↔ IsPlaceholder path s := by
  unfold wholePlaceholder?
  constructor
  . intro h
    split at h
    . next found n hfind =>
      split at h
      . next hlength =>
        obtain ⟨text, rest, hs, hn, hplaceholder⟩ := isPlaceholder_of_placeholder? hfind
        have hrest : rest = [] := by
          rw [hn, hs, List.length_append] at hlength
          exact List.length_eq_zero_iff.mp (by omega)
        simp only [Option.some.injEq] at h
        rw [hs, hrest, List.append_nil, ← h]
        exact hplaceholder
      . cases h
    . cases h
  . intro h
    have hfind := h.placeholder? []
    rw [List.append_nil] at hfind
    simp only [hfind, if_pos]

theorem IsPlaceholder.fragments {path : Path} {s : List Char} (h : IsPlaceholder path s)
    : fragments s = [.found path s] := by
  obtain ⟨c, cs, rfl⟩ := List.exists_cons_of_ne_nil h.ne_nil
  obtain ⟨other, text, rest, hs, hplaceholder, hfragments⟩ | ⟨hnone, _⟩ := fragments_cons c cs
  . rw [← List.append_nil (c :: cs)] at hs
    obtain ⟨rfl, rfl⟩ := h.unique hplaceholder hs
    rw [hfragments, List.append_cancel_left hs.symm, fragments_nil]
  . have hfind := h.placeholder? []
    rw [List.append_nil, hnone] at hfind
    cases hfind

theorem mem_fragments_of_isInfix {s part text : List Char} {path : Path} (hpart : part <:+: s)
    (h : .found path text ∈ fragments part)
    : .found path text ∈ fragments s := by
  rw [mem_fragments_iff] at h ⊢
  exact ⟨h.1, h.2.trans hpart⟩

end Runbook.Template
