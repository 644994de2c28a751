import Runbook.Proofs.Credential.Piece

/-!
This module contains where credentials are found in a text. Every shape of the catalogue begins with
a word, so that none is found where the text goes on with something else; in particular none begins
within the mark that stands in the place of a credential.
-/

namespace Runbook.Credential

open Text

def Piece.Clashes (anyCase : Bool) (beginning : List Char) : Piece → Prop
  | word text =>
    ¬ text.toList <+: beginning.map (folded anyCase) ∧
      ¬ beginning.map (folded anyCase) <+: text.toList
  | span .. => False

instance (anyCase : Bool) (beginning : List Char) (piece : Piece)
    : Decidable (piece.Clashes anyCase beginning) := by
  unfold Piece.Clashes
  split <;> infer_instance

theorem Piece.Clashes.take {anyCase : Bool} {beginning : List Char} {piece : Piece}
    (h : piece.Clashes anyCase beginning) (t : List Char)
    : piece.take anyCase (beginning ++ t) = none := by
  cases piece with
  | word text =>
    rw [Option.eq_none_iff_forall_ne_some]
    intro n hn
    simp only [Piece.take, takeWord_eq_some_iff, List.map_append] at hn
    obtain hshort | ⟨r, hr, _⟩ := prefix_append_cases hn.2
    . exact h.1 hshort
    . apply h.2
      rw [hr]
      exact List.prefix_append ..
  | span holds least most => exact h.elim

namespace Shape

def mark (shape : Shape) : List Char :=
  (shape.name ++ "=" ++ redacted).toList

def Clashes (shape : Shape) (beginning : List Char) : Prop :=
  ∀ row ∈ shape.rows, ∃ piece ∈ row.head?, piece.Clashes shape.anyCase beginning

instance (shape : Shape) (beginning : List Char) : Decidable (shape.Clashes beginning) :=
  inferInstanceAs (Decidable
    (∀ row ∈ shape.rows, ∃ piece ∈ row.head?, piece.Clashes shape.anyCase beginning))

theorem Clashes.find? {shape : Shape} {beginning : List Char} (h : shape.Clashes beginning)
    (t : List Char)
    : shape.find? (beginning ++ t) = none := by
  unfold Shape.find?
  rw [Option.map_eq_none_iff, List.findSome?_eq_none_iff]
  intro row hrow
  obtain ⟨piece, hpiece, hclash⟩ := h row hrow
  obtain ⟨rest, rfl⟩ := List.head?_eq_some_iff.mp hpiece
  rw [takeRow, hclash.take]
  rfl

theorem exists_row_of_find? {shape : Shape} {s : List Char} {n : Nat}
    (h : shape.find? s = some ((), n))
    : ∃ row ∈ shape.rows, takeRow shape.anyCase s row = some n := by
  simp only [Shape.find?, Option.map_eq_some_iff, Prod.mk.injEq, true_and, exists_eq_right] at h
  exact List.exists_of_findSome?_eq_some h

theorem find?_of_head {shape : Shape} {s : List Char} {row : List Piece} {n : Nat}
    (hrow : shape.rows.head? = some row) (h : takeRow shape.anyCase s row = some n)
    : shape.find? s = some ((), n) := by
  obtain ⟨rows, hrows⟩ := List.head?_eq_some_iff.mp hrow
  unfold Shape.find?
  rw [hrows, List.findSome?_cons_of_isSome]
  . rw [h, Option.map_some]
  . rw [h, Option.isSome_some]

theorem find?_isSome_of_mem {shape : Shape} {s : List Char} {row : List Piece} {n : Nat}
    (hrow : row ∈ shape.rows) (h : takeRow shape.anyCase s row = some n)
    : (shape.find? s).isSome := by
  unfold Shape.find?
  rw [Option.isSome_map, List.findSome?_isSome_iff]
  exact ⟨row, hrow, by rw [h]; rfl⟩

end Shape

theorem begins_with_word
    : ∀ shape ∈ catalogue, ∀ row ∈ shape.rows, ∃ piece ∈ row.head?,
        piece.opening.head?.any (!isBlank ·) := by
  decide +kernel

theorem head?_of_find? {shape : Shape} (h : shape ∈ catalogue) {s : List Char} {n : Nat}
    (hs : shape.find? s = some ((), n))
    : 0 < n ∧ ∃ c ∈ s.head?, isBlank c = false := by
  obtain ⟨row, hrow, htake⟩ := shape.exists_row_of_find? hs
  obtain ⟨piece, hpiece, hopening⟩ := begins_with_word shape h row hrow
  obtain ⟨first, hfirst, hblank⟩ := (Option.any_eq_true ..).mp hopening
  obtain ⟨others, rfl⟩ := List.head?_eq_some_iff.mp hpiece
  simp only [takeRow, Option.bind_eq_some_iff, Option.map_eq_some_iff] at htake
  obtain ⟨m, hm, _, _, rfl⟩ := htake
  obtain ⟨hpos, c, hc, rfl⟩ := piece.head?_of_take hfirst hm
  rw [isBlank_folded, Bool.not_eq_true'] at hblank
  exact ⟨Nat.add_pos_left hpos _, c, hc, hblank⟩

theorem isSearch_find? {shape : Shape} (h : shape ∈ catalogue) : IsSearch shape.find? := by
  intro s _ n hs
  obtain ⟨row, hrow, htake⟩ := shape.exists_row_of_find? hs
  exact ⟨(head?_of_find? h hs).1, takeRow_le_length htake⟩

theorem find?_of_isBlank {shape : Shape} (h : shape ∈ catalogue) {c : Char} (hc : isBlank c)
    (cs : List Char)
    : shape.find? (c :: cs) = none := by
  rw [Option.eq_none_iff_forall_ne_some]
  intro ⟨_, n⟩ hfind
  obtain ⟨_, d, hd, hblank⟩ := head?_of_find? h hfind
  cases hd
  rw [hc] at hblank
  cases hblank

section Values

def isValueChar (c : Char) : Bool :=
  !isBlank c && !isQuote c

@[simp]
theorem isValueChar_folded (anyCase : Bool) (c : Char)
    : isValueChar (folded anyCase c) = isValueChar c := by
  unfold isValueChar
  rw [isBlank_folded, isQuote_folded]

theorem isValueChar_of_mem_redacted : ∀ c ∈ redacted.toList, isValueChar c :=
  List.all_eq_true.mp (by decide +kernel)

theorem takeRow_separator {t : List Char} (row : List Piece)
    (ht : ∀ c ∈ t.head?, isValueChar c)
    : takeRow true (['='] ++ t) (separator ++ row) = (takeRow true t row).map (1 + ·) := by
  have hequals : (Piece.span (fun c => c = '=' || c = ':') 1 (some 1)).take true (['='] ++ t)
      = some ['='].length := by
    rw [Piece.take_span_iff]
    exact ⟨List.forall_mem_singleton.mpr (by decide), Nat.le_refl 1, by simp, fun _ _ _ => rfl⟩
  unfold separator
  simp only [List.cons_append, List.nil_append] at hequals ⊢
  rw [takeRow_skip _ (by simp; decide)]
  rw [← List.singleton_append, takeRow_cons _ hequals]
  simp only [isValueChar, Bool.and_eq_true, Bool.not_eq_true'] at ht
  rw [takeRow_skip _ fun c hc => by simp [(ht c hc).1],
    takeRow_skip _ fun c hc => by simp [(ht c hc).2]]
  rfl

end Values

section Marks

theorem clashes_within_mark
    : ∀ shape ∈ catalogue, ∀ other ∈ catalogue, ∀ m ∈ other.mark.tails,
        m = [] ∨ m = other.mark ∨ shape.Clashes m := by
  decide +kernel

theorem clashes_mark
    : ∀ shape ∈ catalogue, ∀ other ∈ catalogue,
        shape.name = other.name ∨ shape.Clashes other.mark := by
  decide +kernel

variable {shape other : Shape}

theorem find?_apiKey_mark (t : List Char) : apiKey.find? (apiKey.mark ++ t) = none := by
  have hmark : apiKey.mark ++ t
      = "api".toList ++ (['_'] ++ ("key".toList ++ (['='] ++ (redacted.toList ++ t)))) := rfl
  have hsign : (Piece.span (fun c => c = '_' || c = '-') 0 (some 1)).take true
      (['_'] ++ ("key".toList ++ (['='] ++ (redacted.toList ++ t)))) = some ['_'].length := rfl
  have hvalue : takeRow true (redacted.toList ++ t)
      [.span isTokenChar 20 none, .span isQuote 0 (some 1)] = none := rfl
  have hrow : takeRow true (apiKey.mark ++ t)
      (.word "api" :: .span (fun c => c = '_' || c = '-') 0 (some 1) :: .word "key" ::
        (separator ++ [.span isTokenChar 20 none, .span isQuote 0 (some 1)])) = none := by
    rw [hmark, takeRow_cons _ (Piece.take_word_iff.mpr (by decide)), takeRow_cons _ hsign,
      takeRow_cons _ (Piece.take_word_iff.mpr (by decide)), takeRow_separator, hvalue]
    . rfl
    . intro c hc
      rw [List.head?_append_of_ne_nil _ (by decide)] at hc
      exact isValueChar_of_mem_redacted c (List.mem_of_mem_head? hc)
  unfold Shape.find?
  rw [Option.map_eq_none_iff, List.findSome?_eq_none_iff]
  intro row hmem
  rw [List.mem_singleton.mp hmem]
  exact hrow

theorem find?_own_mark (h : shape ∈ catalogue) (hname : shape.name ≠ password.name) (t : List Char)
    : shape.find? (shape.mark ++ t) = none := by
  have hclash : ∀ shape ∈ [openaiKey, githubToken, slackToken], shape.Clashes shape.mark := by
    decide +kernel
  simp only [catalogue, List.mem_cons, List.not_mem_nil, or_false] at h
  rcases h with rfl | rfl | rfl | rfl | rfl | rfl
  . exact find?_apiKey_mark t
  . rfl
  . exact (hclash openaiKey (by simp)).find? t
  . exact (hclash githubToken (by simp)).find? t
  . exact (hclash slackToken (by simp)).find? t
  . exact absurd rfl hname

theorem find?_mark (hshape : shape ∈ catalogue) (hother : other ∈ catalogue)
    (hname : shape.name ≠ password.name ∨ other.name ≠ password.name) (t : List Char)
    : shape.find? (other.mark ++ t) = none := by
  obtain heq | hclash := clashes_mark shape hshape other hother
  . have hmark : other.mark = shape.mark := by
      unfold Shape.mark
      rw [heq]
    rw [hmark]
    apply find?_own_mark hshape
    rw [← heq] at hname
    exact or_self_iff.mp hname
  . exact hclash.find? t

theorem find?_within_mark (hshape : shape ∈ catalogue) (hother : other ∈ catalogue)
    {m : List Char} (hne : m ≠ []) (hsuffix : m <:+ other.mark) (hm : m ≠ other.mark)
    (t : List Char)
    : shape.find? (m ++ t) = none := by
  have hclash := clashes_within_mark shape hshape other hother m ((List.mem_tails ..).mpr hsuffix)
  obtain hnil | hwhole | hclash := hclash
  . exact absurd hnil hne
  . exact absurd hwhole hm
  . exact hclash.find? t

theorem redact_mark (hshape : shape ∈ catalogue) (hother : other ∈ catalogue)
    (hname : shape.name ≠ password.name ∨ other.name ≠ password.name) (t : List Char)
    : shape.redact (other.mark ++ t) = other.mark ++ shape.redact t := by
  unfold Shape.redact
  apply replaceAll_append
  intro m hne hsuffix
  by_cases hm : m = other.mark
  . rw [hm]
    exact find?_mark hshape hother hname t
  . exact find?_within_mark hshape hother hne hsuffix hm t

end Marks

section Password

theorem not_isBlank_of_isQuote {c : Char} (h : isQuote c) : isBlank c = false := by
  unfold isQuote at h
  rw [Bool.or_eq_true, decide_eq_true_eq, decide_eq_true_eq] at h
  obtain rfl | rfl := h
  . rfl
  . rfl

def passwordValue : List Piece :=
  [.span isValueChar 8 none, .span isQuote 0 (some 1)]

theorem password_rows
    : password.rows = ["password", "passwd", "pwd"].map fun word =>
        .word word :: (separator ++ passwordValue) := rfl

theorem takeRow_passwordValue {value closing rest : List Char} (hlong : 8 ≤ value.length)
    (hvalue : (value ++ (closing ++ rest)).takeWhile isValueChar = value)
    (hclosing : (limited (some 1) (closing ++ rest)).takeWhile isQuote = closing)
    : takeRow true (value ++ (closing ++ rest)) passwordValue
        =
      some (value.length + closing.length) := by
  rw [takeWhile_append_iff] at hvalue
  rw [takeWhile_limited_iff] at hclosing
  unfold passwordValue
  rw [takeRow_cons, takeRow_cons]
  . rfl
  . simp only [Piece.take_span_iff, isQuote_folded]
    exact ⟨hclosing.1, Nat.zero_le _, hclosing.2⟩
  . simp only [Piece.take_span_iff, isValueChar_folded]
    exact ⟨hvalue.1, hlong, by simp, fun c hc h => absurd h (hvalue.2 c hc)⟩

theorem exists_passwordValue (t : List Char)
    : ∃ value closing rest, t = value ++ (closing ++ rest) ∧
        (value ++ (closing ++ rest)).takeWhile isValueChar = value ∧
        (limited (some 1) (closing ++ rest)).takeWhile isQuote = closing := by
  generalize hvalue : t.takeWhile isValueChar = value
  obtain ⟨behind, hbehind⟩ : value <+: t := by
    rw [← hvalue]
    exact List.takeWhile_prefix _
  generalize hclosing : (limited (some 1) behind).takeWhile isQuote = closing
  obtain ⟨rest, hrest⟩ : closing <+: behind := by
    rw [← hclosing]
    exact (List.takeWhile_prefix _).trans (limited_prefix_self ..)
  subst hrest hbehind
  exact ⟨value, closing, rest, rfl, hvalue, hclosing⟩

theorem find?_password_mark {value closing rest : List Char}
    (hvalue : (value ++ (closing ++ rest)).takeWhile isValueChar = value)
    (hclosing : (limited (some 1) (closing ++ rest)).takeWhile isQuote = closing)
    : password.find? (password.mark ++ (value ++ (closing ++ rest)))
        =
      some ((), (password.mark ++ (value ++ closing)).length) := by
  have hvalue' : (redacted.toList ++ value ++ (closing ++ rest)).takeWhile isValueChar
      = redacted.toList ++ value := by
    rw [List.append_assoc, List.takeWhile_append_of_pos isValueChar_of_mem_redacted, hvalue]
  have hlong : 8 ≤ (redacted.toList ++ value).length := by
    rw [List.length_append]
    exact Nat.le_add_right_of_le (by decide)
  have htext : password.mark ++ (value ++ (closing ++ rest))
      = "password".toList ++ (['='] ++ (redacted.toList ++ value ++ (closing ++ rest))) := by
    simp [Shape.mark, password]
  have hrow : password.rows.head? = some (.word "password" :: (separator ++ passwordValue)) := rfl
  apply Shape.find?_of_head hrow
  rw [htext]
  show takeRow true _ _ = _
  rw [takeRow_cons, takeRow_separator, takeRow_passwordValue hlong hvalue' hclosing]
  . have hmark : password.mark.length = "password".toList.length + (1 + redacted.toList.length) := by
      decide +kernel
    simp only [List.length_append, hmark, Option.map_some, Option.some.injEq]
    omega
  . intro c hc
    rw [List.append_assoc, List.head?_append_of_ne_nil _ (by decide)] at hc
    exact isValueChar_of_mem_redacted c (List.mem_of_mem_head? hc)
  . exact Piece.take_word_iff.mpr (by decide)

theorem isBlank_behind_value {rest : List Char} (hvalue : ∀ c ∈ rest.head?, ¬ isValueChar c)
    (hclosing : (limited (some 1) rest).takeWhile isQuote = [])
    : ∀ c ∈ rest.head?, isBlank c := by
  intro c hc
  rw [← List.nil_append rest, takeWhile_limited_iff] at hclosing
  have hnotQuote : isQuote c = false := by
    simpa using hclosing.2.2 c hc
  have hnotValue := hvalue c hc
  unfold isValueChar at hnotValue
  simpa [hnotQuote] using hnotValue

theorem find?_password_mark_iff {t : List Char}
    : password.find? (password.mark ++ t) = some ((), password.mark.length)
        ↔
      ∀ c ∈ t.head?, isBlank c := by
  obtain ⟨value, closing, rest, rfl, hvalue, hclosing⟩ := exists_passwordValue t
  rw [find?_password_mark hvalue hclosing, Option.some.injEq, Prod.mk.injEq, List.length_append]
  constructor
  . intro ⟨_, hlength⟩
    have hnil : value ++ closing = [] := by
      rw [← List.length_eq_zero_iff]
      omega
    obtain ⟨rfl, rfl⟩ := List.append_eq_nil_iff.mp hnil
    rw [takeWhile_append_iff] at hvalue
    exact isBlank_behind_value hvalue.2 hclosing
  . intro hblank
    rw [takeWhile_append_iff] at hvalue
    rw [takeWhile_limited_iff] at hclosing
    cases value with
    | nil =>
      cases closing with
      | nil => exact ⟨rfl, rfl⟩
      | cons c closing =>
        have hquote := not_isBlank_of_isQuote (hclosing.1 c List.mem_cons_self)
        rw [hblank c rfl] at hquote
        cases hquote
    | cons c value =>
      have hvalueChar := hvalue.1 c List.mem_cons_self
      unfold isValueChar at hvalueChar
      simp [hblank c rfl] at hvalueChar

end Password

end Runbook.Credential
