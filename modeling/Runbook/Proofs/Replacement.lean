import Runbook.Text.Cut

/-!
This module contains how a replacement goes through a text: it keeps a character where nothing is
found, puts the new text in the place of a find, and goes on behind it.
-/

namespace Runbook.Text

theorem prefix_append_cases {w u t : List Char} (h : w <+: u ++ t)
    : w <+: u ∨ ∃ r, w = u ++ r ∧ r <+: t := by
  obtain ⟨s, hs⟩ := h
  rw [List.append_eq_append_iff] at hs
  obtain ⟨r, hu, _⟩ | ⟨r, hw, ht⟩ := hs
  . exact .inl ⟨r, hu.symm⟩
  . exact .inr ⟨r, hw, s, ht.symm⟩

theorem suffix_append_cases {v u t : List Char} (h : v <:+ u ++ t)
    : v <:+ t ∨ ∃ m, v = m ++ t ∧ m ≠ [] ∧ m <:+ u := by
  obtain hv | ⟨m, rfl⟩ := List.suffix_or_suffix_of_suffix h (List.suffix_append u t)
  . exact .inl hv
  . by_cases hm : m = []
    . left
      rw [hm]
      exact List.suffix_rfl
    . rw [List.suffix_append_self_iff] at h
      exact .inr ⟨m, rfl, hm, h⟩

variable {α : Type} {find? : List Char → Option (α × Nat)} {new : List Char}

def IsSearch (find? : List Char → Option (α × Nat)) : Prop :=
  ∀ s value n, find? s = some (value, n) → 0 < n ∧ n ≤ s.length

theorem replaceAll_cons {c : Char} {cs : List Char} (h : find? (c :: cs) = none)
    : replaceAll find? new (c :: cs) = c :: replaceAll find? new cs := by
  unfold replaceAll cut
  rw [cut.go, h]
  rfl

theorem replaceAll_found {word rest : List Char} {value : α} (hword : word ≠ [])
    (h : find? (word ++ rest) = some (value, word.length))
    : replaceAll find? new (word ++ rest) = new ++ replaceAll find? new rest := by
  obtain ⟨c, cs, rfl⟩ := List.exists_cons_of_ne_nil hword
  rw [List.cons_append] at h ⊢
  unfold replaceAll cut
  rw [cut.go, h]
  dsimp only [List.length_cons]
  rw [cut.go_eq, List.drop_left]
  rfl

/-- What is said of texts find by find, from the end to the beginning. -/
theorem replacement_induction (hfind : IsSearch find?) {motive : List Char → Prop}
    (nil : motive [])
    (found : ∀ word rest value, word ≠ [] → find? (word ++ rest) = some (value, word.length) →
      motive rest → motive (word ++ rest))
    (char : ∀ c cs, find? (c :: cs) = none → motive cs → motive (c :: cs))
    (s : List Char)
    : motive s := by
  induction hlength : s.length using Nat.strongRecOn generalizing s with
  | ind length ih =>
    cases s with
    | nil => exact nil
    | cons c cs =>
      cases hs : find? (c :: cs) with
      | none =>
        have hshorter : cs.length < length := by
          rw [← hlength]
          exact Nat.lt_succ_self _
        exact char c cs hs (ih cs.length hshorter cs rfl)
      | some result =>
        obtain ⟨value, n⟩ := result
        obtain ⟨hpos, hle⟩ := hfind _ _ _ hs
        have htake : ((c :: cs).take n).length = n := List.length_take_of_le hle
        have hshorter : ((c :: cs).drop n).length < length := by
          rw [List.length_drop, ← hlength]
          omega
        rw [← List.take_append_drop n (c :: cs)]
        apply found _ _ value
        . intro hnil
          rw [hnil, List.length_nil] at htake
          omega
        . rw [List.take_append_drop, htake, hs]
        . exact ih _ hshorter _ rfl

theorem replaceAll_append {u t : List Char}
    (h : ∀ v, v ≠ [] → v <:+ u → find? (v ++ t) = none)
    : replaceAll find? new (u ++ t) = u ++ replaceAll find? new t := by
  induction u with
  | nil => rfl
  | cons c u ih =>
    have hfirst := h (c :: u) (List.cons_ne_nil _ _) List.suffix_rfl
    rw [List.cons_append] at hfirst ⊢
    rw [replaceAll_cons hfirst, ih fun v hv hv' => h v hv (hv'.trans (List.suffix_cons c u))]
    rfl

theorem countP_replaceAll_le (hfind : IsSearch find?) {p : Char → Bool} (hnew : new.countP p = 0)
    (s : List Char)
    : (replaceAll find? new s).countP p ≤ s.countP p := by
  induction s using replacement_induction hfind with
  | nil => exact Nat.le_refl _
  | found word rest value hne hword ih =>
    rw [replaceAll_found hne hword, List.countP_append, List.countP_append, hnew]
    omega
  | char c cs hnone ih =>
    rw [replaceAll_cons hnone, List.countP_cons, List.countP_cons]
    omega

end Runbook.Text
