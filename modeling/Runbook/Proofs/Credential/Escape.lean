import Runbook.Proofs.Credential.Settled
import Runbook.Proofs.LogText

/-!
This module contains what becomes of credentials when control characters are written as escapes
before credentials are looked for. Blanks stand between the parts of a credential, and some of them
are control characters, but the escapes of these are not looked for.
-/

namespace Runbook.LogText

open Text
open Credential

def escaped (s : List Char) : List Char :=
  s.flatMap escape

/-- A row of characters without tabs, line breaks and other blanks that are control characters. -/
def IsUnbroken (s : List Char) : Prop :=
  ∀ c ∈ s, isBlank c → isControl c = false

instance (s : List Char) : Decidable (IsUnbroken s) :=
  decidable_of_iff (s.all fun c => !isBlank c || !isControl c)
    (by simp [IsUnbroken, Decidable.imp_iff_not_or])

section Escapes

variable {s t u : List Char}

theorem escaped_append : escaped (s ++ t) = escaped s ++ escaped t :=
  List.flatMap_append

theorem CleanChars.escaped (h : CleanChars u) : escaped u = u := by
  induction u with
  | nil => rfl
  | cons c u ih =>
    unfold CleanChars at h
    rw [List.forall_mem_cons] at h
    obtain ⟨_, hescape⟩ | ⟨hcontrol, _⟩ := escape_cases c
    . unfold LogText.escaped at ih ⊢
      rw [List.flatMap_cons, hescape, ih h.2]
      rfl
    . rw [h.1] at hcontrol
      cases hcontrol

theorem head?_escaped : ∀ d ∈ (escaped t).head?, d = '\\' ∨ d ∈ t.head? := by
  cases t with
  | nil => exact fun d hd => nomatch hd
  | cons c t =>
    intro d hd
    unfold escaped at hd
    rw [List.flatMap_cons] at hd
    obtain ⟨_, hescape⟩ | ⟨_, code, hescape, _⟩ := escape_cases c
    . rw [hescape] at hd
      exact .inr hd
    . rw [hescape] at hd
      exact .inl (Option.some.inj hd).symm

theorem isBlank_of_escaped (h : ∀ d ∈ (escaped t).head?, isBlank d) : ∀ c ∈ t.head?, isBlank c := by
  cases t with
  | nil => exact fun c hc => nomatch hc
  | cons c t =>
    unfold escaped at h
    rw [List.flatMap_cons] at h
    obtain ⟨_, hescape⟩ | ⟨_, code, hescape, _⟩ := escape_cases c
    . rw [hescape] at h
      exact h
    . rw [hescape] at h
      exact nomatch h '\\' rfl

theorem length_le_escaped (s : List Char) : s.length ≤ (escaped s).length := by
  induction s with
  | nil => exact Nat.le_refl _
  | cons c s ih =>
    have hescape : 1 ≤ (escape c).length := by
      obtain ⟨_, hescape⟩ | ⟨_, code, hescape, _⟩ := escape_cases c
      . rw [hescape]
        rfl
      . rw [hescape, List.length_cons]
        exact Nat.le_add_left ..
    unfold escaped at ih ⊢
    rw [List.flatMap_cons, List.length_append, List.length_cons]
    omega

theorem isValueChar_escaped (h : ∀ c ∈ s, isValueChar c) : ∀ d ∈ escaped s, isValueChar d := by
  have hcodes : ∀ d ∈ '\\' :: escapeChars, isValueChar d :=
    List.all_eq_true.mp (by decide +kernel)
  intro d hd
  obtain ⟨c, hc, hd⟩ := List.mem_flatMap.mp hd
  obtain ⟨_, hescape⟩ | ⟨_, code, hescape, hcode⟩ := escape_cases c
  . rw [hescape, List.mem_singleton] at hd
    rw [hd]
    exact h c hc
  . rw [hescape] at hd
    exact hcodes d (List.cons_subset_cons _ hcode hd)

theorem prefix_of_prefix_escaped {m : List Char} (hm : '\\' ∉ m) (h : m <+: escaped s) : m <+: s := by
  induction s generalizing m with
  | nil => exact h
  | cons c s ih =>
    cases m with
    | nil => exact List.nil_prefix
    | cons d m =>
      rw [List.mem_cons, not_or] at hm
      unfold escaped at h ih
      rw [List.flatMap_cons] at h
      obtain ⟨_, hescape⟩ | ⟨_, code, hescape, _⟩ := escape_cases c
      . rw [hescape, List.singleton_append, List.cons_prefix_cons] at h
        rw [List.cons_prefix_cons]
        exact ⟨h.1, ih hm.2 h.2⟩
      . rw [hescape, List.cons_append, List.cons_prefix_cons] at h
        exact absurd h.1.symm hm.1

end Escapes

section Rows

variable {anyCase : Bool} {piece : Piece} {row front : List Piece} {u t : List Char}

def controlChars : List Char :=
  ((List.range 160).map Char.ofNat).filter isControl

theorem mem_controlChars {c : Char} (h : isControl c) : c ∈ controlChars := by
  have hlt : c.toNat < 160 := by
    unfold isControl at h
    simp only [Bool.or_eq_true, Bool.and_eq_true, decide_eq_true_eq] at h
    omega
  unfold controlChars
  rw [List.mem_filter, List.mem_map]
  exact ⟨⟨c.toNat, List.mem_range.mpr hlt, Char.ofNat_toNat c⟩, h⟩

theorem isControl_folded (anyCase : Bool) (c : Char)
    : isControl (folded anyCase c) = isControl c :=
  apply_folded (by decide +kernel) (by decide) (by decide) anyCase c

def IsPlain : Piece → Prop
  | .word text => CleanChars text.toList
  | .span holds _ _ => holds '\\' = false ∧ (controlChars.filter holds).all isBlank

instance (piece : Piece) : Decidable (IsPlain piece) :=
  match piece with
  | .word text => inferInstanceAs (Decidable (CleanChars text.toList))
  | .span holds _ _ =>
    inferInstanceAs (Decidable (holds '\\' = false ∧ (controlChars.filter holds).all isBlank))

theorem IsPlain.clean (h : IsPlain piece) (hu : IsUnbroken u)
    (htake : piece.take anyCase (u ++ t) = some u.length)
    : CleanChars u := by
  intro c hc
  rw [← isControl_folded anyCase]
  cases piece with
  | word text =>
    rw [Piece.take_word_iff] at htake
    apply h
    rw [← htake]
    exact List.mem_map_of_mem hc
  | span holds least most =>
    rw [Piece.take_span_iff] at htake
    by_contra hcontrol
    rw [Bool.not_eq_false] at hcontrol
    have hheld := List.mem_filter.mpr ⟨mem_controlChars hcontrol, htake.1 c hc⟩
    have hblank := List.all_eq_true.mp h.2 _ hheld
    rw [isBlank_folded] at hblank
    rw [isControl_folded, hu c hc hblank] at hcontrol
    cases hcontrol

theorem IsPlain.take_escaped (h : IsPlain piece)
    (htake : piece.take anyCase (u ++ t) = some u.length)
    : piece.take anyCase (u ++ escaped t) = some u.length := by
  cases piece with
  | word text =>
    rw [Piece.take_word_iff] at htake ⊢
    exact htake
  | span holds least most =>
    rw [Piece.take_span_iff] at htake ⊢
    obtain ⟨hall, hleast, hmost, hend⟩ := htake
    refine ⟨hall, hleast, hmost, ?_⟩
    intro d hd hholds
    obtain rfl | hd := head?_escaped d hd
    . have hbackslash : folded anyCase '\\' = '\\' := by
        cases anyCase <;> decide
      rw [hbackslash, h.1] at hholds
      cases hholds
    . exact hend d hd hholds

/-- A row that is found in an escaped text where it is found in the text. -/
def Survives (anyCase : Bool) (row : List Piece) : Prop :=
  ∀ w t, IsUnbroken w → takeRow anyCase (w ++ t) row = some w.length →
    (takeRow anyCase (escaped (w ++ t)) row).isSome

theorem survives_nil : Survives anyCase [] :=
  fun _ _ _ _ => rfl

theorem Survives.append (hfront : ∀ piece ∈ front, IsPlain piece) (hrow : Survives anyCase row)
    : Survives anyCase (front ++ row) := by
  induction front with
  | nil => exact hrow
  | cons piece front ih =>
    rw [List.forall_mem_cons] at hfront
    intro w t hw htake
    rw [List.cons_append, takeRow_cons_iff] at htake
    obtain ⟨u, v, rfl, hu, hv⟩ := htake
    unfold IsUnbroken at hw
    rw [List.forall_mem_append] at hw
    rw [List.append_assoc, escaped_append, (hfront.1.clean hw.1 hu).escaped]
    rw [List.cons_append, takeRow_cons _ (hfront.1.take_escaped hu), Option.isSome_map]
    exact ih hfront.2 v t hw.2 hv

theorem survives_passwordValue : Survives true passwordValue := by
  intro w t _ htake
  unfold passwordValue at htake
  rw [takeRow_cons_iff] at htake
  obtain ⟨u, v, rfl, hu, _⟩ := htake
  simp only [Piece.take_span_iff, isValueChar_folded] at hu
  obtain ⟨value, closing, rest, htext, hvalue, hclosing⟩ :=
    exists_passwordValue (escaped (u ++ v ++ t))
  have hlong : 8 ≤ value.length := by
    have hle := length_le_escaped u
    rw [← hvalue, ← htext, List.append_assoc, escaped_append,
      List.takeWhile_append_of_pos (isValueChar_escaped hu.1), List.length_append]
    omega
  rw [htext, takeRow_passwordValue hlong hvalue hclosing]
  rfl

theorem survives_of_mem_rows {shape : Shape} (hshape : shape ∈ catalogue) (hrow : row ∈ shape.rows)
    : Survives shape.anyCase row := by
  have htokens : ∀ shape ∈ tokenShapes, ∀ row ∈ shape.rows, ∀ piece ∈ row, IsPlain piece := by
    decide +kernel
  have hwords : ∀ word ∈ ["password", "passwd", "pwd"], ∀ piece ∈ .word word :: separator,
      IsPlain piece := by
    decide +kernel
  rw [mem_catalogue_iff] at hshape
  cases hshape with
  | inl htoken =>
    rw [← List.append_nil row]
    exact survives_nil.append (htokens shape htoken row hrow)
  | inr hpassword =>
    subst hpassword
    rw [password_rows, List.mem_map] at hrow
    obtain ⟨word, hword, rfl⟩ := hrow
    exact survives_passwordValue.append (hwords word hword)

end Rows

section Shapes

variable {shape : Shape} {word rest s : List Char}

theorem find?_escaped_isSome (hshape : shape ∈ catalogue) (hword : IsUnbroken word)
    (hfind : shape.find? (word ++ rest) = some ((), word.length))
    : (shape.find? (escaped (word ++ rest))).isSome := by
  obtain ⟨row, hrow, htake⟩ := shape.exists_row_of_find? hfind
  have hsome := survives_of_mem_rows hshape hrow word rest hword htake
  obtain ⟨n, hn⟩ := Option.isSome_iff_exists.mp hsome
  exact shape.find?_isSome_of_mem hrow hn

theorem eq_mark_of_escaped (hshape : shape ∈ catalogue)
    (hfind : shape.find? (word ++ rest) = some ((), word.length)) {rest' : List Char}
    (htext : escaped (word ++ rest) = shape.mark ++ rest')
    (hfind' : shape.find? (shape.mark ++ rest') = some ((), shape.mark.length))
    : word = shape.mark := by
  have hmark : '\\' ∉ password.mark ∧ CleanChars password.mark := by decide +kernel
  rw [mem_catalogue_iff] at hshape
  cases hshape with
  | inl htoken =>
    rw [find?_own_mark (mem_of_mem_tokenShapes htoken) (name_ne_of_mem_tokenShapes shape htoken)]
      at hfind'
    cases hfind'
  | inr hpassword =>
    subst hpassword
    obtain ⟨behind, hbehind⟩ : password.mark <+: word ++ rest := by
      apply prefix_of_prefix_escaped hmark.1
      rw [htext]
      exact List.prefix_append ..
    rw [← hbehind, escaped_append, hmark.2.escaped, List.append_cancel_left_eq] at htext
    rw [find?_password_mark_iff, ← htext] at hfind'
    have hsame := find?_password_mark_iff.mpr (isBlank_of_escaped hfind')
    rw [hbehind, hfind, Option.some.injEq, Prod.mk.injEq] at hsame
    exact (List.append_inj hbehind hsame.2.symm).1.symm

theorem shows_escaped (hshape : shape ∈ catalogue) (hshows : shape.Shows word s)
    (hword : IsUnbroken word)
    : ∃ word', shape.Shows word' (escaped s) := by
  obtain ⟨rest, ⟨before, hs⟩, hfind, hne⟩ := hshows
  obtain ⟨⟨_, n⟩, hescaped⟩ := Option.isSome_iff_exists.mp (find?_escaped_isSome hshape hword hfind)
  obtain ⟨word', rest', htext, rfl, _⟩ := shape.redact_found hshape hescaped
  rw [htext] at hescaped
  refine ⟨word', rest', ?_, hescaped, ?_⟩
  . have hsuffix : escaped (word ++ rest) <:+ escaped before ++ escaped (word ++ rest) :=
      List.suffix_append ..
    rw [← escaped_append, hs, htext] at hsuffix
    exact hsuffix
  . rintro rfl
    exact hne (eq_mark_of_escaped hshape hfind htext hescaped)

end Shapes

theorem toList_sanitize (text : String) : (sanitize text).toList = escaped text.toList := by
  unfold sanitize
  rw [String.toList_ofList]
  rfl

/--
Removing credentials changes a text where it shows one. On the way to the log at least the
credentials that hold no blanks to be escaped are removed.
-/
theorem safe_removes_unbroken {text : String}
    : (redact text ≠ text ↔ ∃ shape ∈ catalogue, ∃ word, shape.Shows word text.toList) ∧
        ((∃ shape ∈ catalogue, ∃ word, shape.Shows word text.toList ∧ IsUnbroken word) →
          safe text ≠ sanitize text) := by
  refine ⟨redact_ne_iff, ?_⟩
  intro ⟨shape, hshape, word, hshows, hword⟩
  unfold safe
  rw [redact_ne_iff, toList_sanitize]
  exact ⟨shape, hshape, shows_escaped hshape hshows hword⟩

/-- A token behind a space is removed, whatever control characters there are around it. -/
theorem safe_removes_spaced_token
    : (∃ shape ∈ catalogue, ∃ word,
          shape.Shows word "\tbearer abcdefghijklmnopqrst\n".toList ∧ IsUnbroken word) ∧
        safe "\tbearer abcdefghijklmnopqrst\n" ≠ sanitize "\tbearer abcdefghijklmnopqrst\n" := by
  have hshows : ∃ shape ∈ catalogue, ∃ word,
      shape.Shows word "\tbearer abcdefghijklmnopqrst\n".toList ∧ IsUnbroken word := by
    refine ⟨bearerToken, by simp [catalogue], "bearer abcdefghijklmnopqrst".toList, ?_, by decide +kernel⟩
    refine ⟨['\n'], ?_, by decide +kernel, by decide +kernel⟩
    exact ⟨['\t'], by decide +kernel⟩
  exact ⟨hshows, safe_removes_unbroken.2 hshows⟩

/-- A token behind a line break goes to the log. -/
theorem not_safe_of_broken_token
    : ¬ ∀ text, redact text ≠ text → safe text ≠ sanitize text := by
  intro hsafe
  apply hsafe "bearer\nabcdefghijklmnopqrstuvwxyz"
  . decide +kernel
  . decide +kernel

end Runbook.LogText
