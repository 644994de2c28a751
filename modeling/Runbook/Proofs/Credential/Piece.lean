import Mathlib.Data.List.Infix
import Mathlib.Data.List.TakeWhile
import Runbook.Credential
import Runbook.Proofs.Replacement

/-!
This module contains what the pieces of a shape take from a text. A word takes what is the same up
to the case of its letters, a span takes characters of its class until there are no more of them,
and a row takes one piece behind the other.
-/

namespace Runbook.Credential

open Text

def folded (anyCase : Bool) (c : Char) : Char :=
  if anyCase then fold c else c

section Folding

theorem fold_of_beyond_ascii {c : Char} (h : 128 ≤ c.toNat) (hkelvin : c ≠ '\u212a')
    (hlong : c ≠ '\u017f')
    : fold c = c := by
  unfold fold
  rw [if_neg hkelvin, if_neg hlong]
  unfold Char.toLower
  rw [dif_neg]
  intro ⟨_, hle⟩
  have hle' : c.toNat ≤ 90 := hle
  omega

theorem apply_folded {p : Char → Bool}
    (hascii : ∀ n < 128, p (fold (Char.ofNat n)) = p (Char.ofNat n))
    (hkelvin : p 'k' = p '\u212a') (hlong : p 's' = p '\u017f') (anyCase : Bool) (c : Char)
    : p (folded anyCase c) = p c := by
  unfold folded
  split
  . by_cases hc : c.toNat < 128
    . rw [← Char.ofNat_toNat c]
      exact hascii c.toNat hc
    . by_cases hk : c = '\u212a'
      . rw [hk]
        exact hkelvin
      . by_cases hs : c = '\u017f'
        . rw [hs]
          exact hlong
        . rw [fold_of_beyond_ascii (by omega) hk hs]
  . rfl

@[simp]
theorem isBlank_folded (anyCase : Bool) (c : Char) : isBlank (folded anyCase c) = isBlank c :=
  apply_folded (by decide +kernel) (by decide) (by decide) anyCase c

@[simp]
theorem isQuote_folded (anyCase : Bool) (c : Char) : isQuote (folded anyCase c) = isQuote c :=
  apply_folded (by decide +kernel) (by decide) (by decide) anyCase c

end Folding

section Pieces

variable {anyCase : Bool} {holds : Char → Bool} {least : Nat} {most : Option Nat}

theorem takeWord_cons (w c : Char) (word s : List Char)
    : takeWord anyCase (w :: word) (c :: s)
        =
      if w = folded anyCase c then (takeWord anyCase word s).map (· + 1) else none := rfl

theorem takeWord_eq_some_iff {word s : List Char} {n : Nat}
    : takeWord anyCase word s = some n
        ↔
      n = word.length ∧ word <+: s.map (folded anyCase) := by
  induction word generalizing s n with
  | nil => simp [takeWord, eq_comm]
  | cons w word ih =>
    cases s with
    | nil => simp [takeWord]
    | cons c s =>
      rw [takeWord_cons, List.map_cons, List.cons_prefix_cons]
      split
      . next hw =>
        simp only [Option.map_eq_some_iff, ih, List.length_cons]
        constructor
        . rintro ⟨n, ⟨rfl, hstart⟩, rfl⟩
          exact ⟨rfl, hw, hstart⟩
        . rintro ⟨rfl, _, hstart⟩
          exact ⟨_, ⟨rfl, hstart⟩, rfl⟩
      . next hw =>
        constructor
        . exact fun h => nomatch h
        . exact fun ⟨_, hw', _⟩ => absurd hw' hw

theorem Piece.take_word_iff {text : String} {u t : List Char}
    : (word text).take anyCase (u ++ t) = some u.length ↔ u.map (folded anyCase) = text.toList := by
  simp only [take, takeWord_eq_some_iff, List.map_append]
  constructor
  . intro ⟨hlength, hstart⟩
    have hmap : u.map (folded anyCase) <+: u.map (folded anyCase) ++ t.map (folded anyCase) :=
      List.prefix_append ..
    have hle : (u.map (folded anyCase)).length ≤ text.toList.length := by
      rw [List.length_map]
      exact Nat.le_of_eq hlength
    apply (List.prefix_of_prefix_length_le hmap hstart hle).eq_of_length
    rw [List.length_map, hlength]
  . intro heq
    rw [← heq, List.length_map]
    exact ⟨rfl, List.prefix_append ..⟩

def limited (most : Option Nat) (s : List Char) : List Char :=
  match most with
  | some n => s.take n
  | none => s

theorem Piece.take_span (s : List Char)
    : (span holds least most).take anyCase s
        =
      let taken := (limited most s).takeWhile fun c => holds (folded anyCase c)
      if least ≤ taken.length then some taken.length else none := rfl

theorem takeWhile_append_iff {p : Char → Bool} {u t : List Char}
    : (u ++ t).takeWhile p = u ↔ (∀ c ∈ u, p c) ∧ ∀ c ∈ t.head?, ¬ p c := by
  constructor
  . intro h
    have hall : ∀ c ∈ u, p c := by
      intro c hc
      rw [← h] at hc
      exact List.mem_takeWhile_imp hc
    refine ⟨hall, ?_⟩
    rw [List.takeWhile_append_of_pos hall, List.append_right_eq_self] at h
    cases t with
    | nil => simp
    | cons c t => simpa [List.takeWhile_cons] using h
  . intro ⟨hall, hhead⟩
    rw [List.takeWhile_append_of_pos hall, List.append_right_eq_self]
    cases t with
    | nil => rfl
    | cons c t => exact List.takeWhile_cons_of_neg (hhead c rfl)

theorem takeWhile_limited_iff {p : Char → Bool} {u t : List Char}
    : (limited most (u ++ t)).takeWhile p = u
        ↔
      (∀ c ∈ u, p c) ∧ (∀ n ∈ most, u.length ≤ n) ∧ ∀ c ∈ t.head?, p c → most = some u.length := by
  cases most with
  | none =>
    unfold limited
    simp [takeWhile_append_iff]
  | some n =>
    unfold limited
    dsimp only
    by_cases hn : u.length ≤ n
    . rw [List.take_append, List.take_of_length_le hn, takeWhile_append_iff]
      simp only [Option.mem_def, Option.some.injEq, forall_eq', hn, true_and]
      refine and_congr_right fun _ => ?_
      obtain heq | hlt := Nat.eq_or_lt_of_le hn
      . simp [heq]
      . have hpos : n - u.length ≠ 0 := by omega
        have hne : n ≠ u.length := by omega
        simp [List.head?_take, hpos, hne]
    . constructor
      . intro h
        have hle : u.length ≤ n := by
          rw [← h]
          exact (List.takeWhile_prefix _).length_le.trans (List.length_take_le ..)
        exact absurd hle hn
      . exact fun ⟨_, hle, _⟩ => absurd (hle n rfl) hn

theorem limited_prefix_self (most : Option Nat) (s : List Char) : limited most s <+: s := by
  unfold limited
  split
  . exact List.take_prefix ..
  . exact List.prefix_rfl

theorem Piece.take_span_iff {u t : List Char}
    : (span holds least most).take anyCase (u ++ t) = some u.length
        ↔
      (∀ c ∈ u, holds (folded anyCase c)) ∧ least ≤ u.length ∧ (∀ n ∈ most, u.length ≤ n) ∧
        ∀ c ∈ t.head?, holds (folded anyCase c) → most = some u.length := by
  rw [take_span, ← and_left_comm, ← takeWhile_limited_iff (p := fun c => holds (folded anyCase c))]
  dsimp only
  have hstart : (limited most (u ++ t)).takeWhile (fun c => holds (folded anyCase c)) <+: u ++ t :=
    (List.takeWhile_prefix _).trans (limited_prefix_self most (u ++ t))
  constructor
  . intro h
    split at h
    . next hleast =>
      rw [Option.some.injEq] at h
      have htaken := List.prefix_of_prefix_length_le hstart (List.prefix_append u t)
        (Nat.le_of_eq h)
      rw [h] at hleast
      exact ⟨hleast, htaken.eq_of_length h⟩
    . cases h
  . intro ⟨hleast, htaken⟩
    rw [htaken, if_pos hleast]

theorem takeRow_cons_iff {piece : Piece} {row : List Piece} {w t : List Char}
    : takeRow anyCase (w ++ t) (piece :: row) = some w.length
        ↔
      ∃ u v, w = u ++ v ∧ piece.take anyCase (u ++ (v ++ t)) = some u.length ∧
        takeRow anyCase (v ++ t) row = some v.length := by
  simp only [takeRow, Option.bind_eq_some_iff, Option.map_eq_some_iff]
  constructor
  . intro ⟨n, hn, k, hk, hlength⟩
    have hle : n ≤ w.length := by omega
    have hw := List.take_append_drop n w
    refine ⟨w.take n, w.drop n, hw.symm, ?_, ?_⟩
    . rw [← List.append_assoc, hw, hn, List.length_take_of_le hle]
    . rw [List.drop_append_of_le_length hle] at hk
      rw [hk, List.length_drop]
      congr 1
      omega
  . rintro ⟨u, v, rfl, hu, hv⟩
    refine ⟨u.length, ?_, v.length, ?_, ?_⟩
    . rw [List.append_assoc, hu]
    . rw [List.append_assoc, List.drop_left, hv]
    . rw [List.length_append]

theorem takeRow_cons {piece : Piece} {u t : List Char} (row : List Piece)
    (h : piece.take anyCase (u ++ t) = some u.length)
    : takeRow anyCase (u ++ t) (piece :: row) = (takeRow anyCase t row).map (u.length + ·) := by
  rw [takeRow, h, Option.bind_some, List.drop_left]

theorem takeRow_skip {t : List Char} (row : List Piece)
    (ht : ∀ c ∈ t.head?, ¬ holds (folded anyCase c))
    : takeRow anyCase t (.span holds 0 most :: row) = takeRow anyCase t row := by
  have hskip : (Piece.span holds 0 most).take anyCase ([] ++ t) = some ([] : List Char).length := by
    rw [Piece.take_span_iff]
    exact ⟨List.forall_mem_nil _, Nat.zero_le _, fun n _ => Nat.zero_le n,
      fun c hc hholds => absurd hholds (ht c hc)⟩
  have hcons := takeRow_cons row hskip
  simpa using hcons

theorem Piece.take_le_length {piece : Piece} {s : List Char} {n : Nat}
    (h : piece.take anyCase s = some n)
    : n ≤ s.length := by
  cases piece with
  | word text =>
    simp only [take, takeWord_eq_some_iff] at h
    have hle := h.2.length_le
    rw [List.length_map] at hle
    omega
  | span holds least most =>
    rw [take_span] at h
    dsimp only at h
    split at h
    . rw [Option.some.injEq] at h
      rw [← h]
      exact ((List.takeWhile_prefix _).trans (limited_prefix_self most s)).length_le
    . cases h

theorem takeRow_le_length {row : List Piece} {s : List Char} {n : Nat}
    (h : takeRow anyCase s row = some n)
    : n ≤ s.length := by
  induction row generalizing s n with
  | nil =>
    simp only [takeRow, Option.some.injEq] at h
    omega
  | cons piece row ih =>
    simp only [takeRow, Option.bind_eq_some_iff, Option.map_eq_some_iff] at h
    obtain ⟨first, hfirst, rest, hrest, rfl⟩ := h
    have hle := ih hrest
    have hle' := Piece.take_le_length hfirst
    rw [List.length_drop] at hle
    omega

def Piece.opening : Piece → List Char
  | word text => text.toList
  | span .. => []

theorem Piece.head?_of_take {piece : Piece} {s : List Char} {first : Char} {n : Nat}
    (hfirst : first ∈ piece.opening.head?) (h : piece.take anyCase s = some n)
    : 0 < n ∧ ∃ c ∈ s.head?, folded anyCase c = first := by
  cases piece with
  | word text =>
    simp only [take, takeWord_eq_some_iff] at h
    obtain ⟨others, htext⟩ := List.head?_eq_some_iff.mp hfirst
    obtain ⟨hlength, hstart⟩ := h
    dsimp only [opening] at htext
    rw [htext] at hlength hstart
    cases s with
    | nil => simp at hstart
    | cons c s =>
      rw [List.map_cons, List.cons_prefix_cons] at hstart
      rw [hlength]
      exact ⟨Nat.succ_pos _, c, rfl, hstart.1.symm⟩
  | span holds least most => cases hfirst

end Pieces

end Runbook.Credential
