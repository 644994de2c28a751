import Runbook.Proofs.Masking.Occurrence

/-!
This module contains the part that the order of the secrets plays when a text is masked. It plays
none if no two secrets can share a character of a text; if two of them can, then some text shows a
part of a secret in one order and not in another one.
-/

namespace Runbook.Masking

open Text

/-- Secrets of which none that is masked can share a character with a mark. -/
def ApartFromMark (secrets : List String) : Prop :=
  ∀ v ∈ secrets, IsLong v.toList → Apart mark v.toList

/-- Secrets of which no two that are masked can share a character. -/
def PairwiseApart (secrets : List String) : Prop :=
  ∀ v ∈ secrets, ∀ w ∈ secrets, IsLong v.toList → IsLong w.toList → v ≠ w →
    Apart v.toList w.toList

/-- Masking gives the same text for all orders of the secrets. -/
def OrderFree (secrets : List String) : Prop :=
  ∀ order₁ order₂ : List String, order₁.Perm secrets → order₂.Perm secrets →
    ∀ text, mask order₁ text = mask order₂ text

instance (secrets : List String) : Decidable (ApartFromMark secrets) :=
  inferInstanceAs (Decidable (∀ v ∈ secrets, IsLong v.toList → Apart mark v.toList))

instance (secrets : List String) : Decidable (PairwiseApart secrets) :=
  inferInstanceAs (Decidable (∀ v ∈ secrets, ∀ w ∈ secrets, IsLong v.toList → IsLong w.toList →
    v ≠ w → Apart v.toList w.toList))

variable {secrets order : List String}

theorem OrderFree.mask_eq (h : OrderFree secrets) (horder : order.Perm secrets)
    : mask order = mask secrets :=
  funext (h order secrets horder (.refl secrets))

theorem ApartFromMark.mono (h : ApartFromMark secrets) (horder : order ⊆ secrets)
    : ApartFromMark order :=
  fun v hv => h v (horder hv)

theorem PairwiseApart.maskChars_perm (h : PairwiseApart order) (hmark : ApartFromMark order)
    {order' : List String} (hperm : order.Perm order') (s : List Char)
    : maskChars order s = maskChars order' s := by
  apply hperm.foldl_eq'
  intro v hv w hw s
  by_cases hvlong : IsLong v.toList
  case neg => rw [maskOne_of_not_isLong hvlong, maskOne_of_not_isLong hvlong]
  by_cases hwlong : IsLong w.toList
  case neg => rw [maskOne_of_not_isLong hwlong, maskOne_of_not_isLong hwlong]
  by_cases hne : v = w
  . rw [hne]
  . exact maskOne_comm (h v hv w hw hvlong hwlong hne) (hmark v hv hvlong) (hmark w hw hwlong)
      hvlong hwlong s

theorem PairwiseApart.orderFree (h : PairwiseApart secrets) (hmark : ApartFromMark secrets)
    : OrderFree secrets := by
  have horder {order : List String} (hperm : order.Perm secrets) (text : String)
      : mask order text = mask secrets text := by
    unfold mask
    rw [h.maskChars_perm hmark hperm.symm]
  intro order₁ order₂ h₁ h₂ text
  rw [horder h₁, horder h₂]

theorem maskChars_nil (order : List String) : maskChars order [] = [] := by
  unfold maskChars
  induction order with
  | nil => rfl
  | cons v order ih => rw [List.foldl_cons, maskOne_nil, ih]

theorem ApartFromMark.maskChars_around_mark (hmark : ApartFromMark order) (u t : List Char)
    : maskChars order (u ++ (mark ++ t)) = maskChars order u ++ (mark ++ maskChars order t) := by
  induction order generalizing u t with
  | nil => rfl
  | cons v order ih =>
    have hrest := ih (hmark.mono (List.subset_cons_self v order))
    unfold maskChars at hrest ⊢
    rw [List.foldl_cons, maskOne_around_mark (hmark v List.mem_cons_self), hrest]
    rfl

theorem eq_nil_of_maskChars {s : List Char} (h : maskChars order s = []) : s = [] := by
  induction order generalizing s with
  | nil => exact h
  | cons v order ih => exact eq_nil_of_maskOne (ih h)

theorem maskChars_of_not_infix {s : List Char}
    (h : ∀ v ∈ order, IsLong v.toList → ¬ v.toList <:+: s)
    : maskChars order s = s := by
  induction order with
  | nil => rfl
  | cons v order ih =>
    rw [List.forall_mem_cons] at h
    have hv : maskOne s v.toList = s := by
      by_cases hlong : IsLong v.toList
      . exact maskOne_of_not_infix (h.1 hlong)
      . exact maskOne_of_not_isLong hlong s
    unfold maskChars at ih ⊢
    rw [List.foldl_cons, hv, ih h.2]

theorem ApartFromMark.maskChars_of_within {v : String} (hmark : ApartFromMark (v :: order))
    (hlong : IsLong v.toList) {s : List Char} (h : v.toList <:+: s)
    : ∃ x y, s = x ++ (v.toList ++ y) ∧
        maskChars (v :: order) s = maskChars order x ++ (mark ++ maskChars (v :: order) y) := by
  obtain ⟨x, y, hs, hmasked⟩ := maskOne_of_infix hlong h
  have horder := hmark.mono (List.subset_cons_self v order)
  refine ⟨x, y, hs, ?_⟩
  unfold maskChars
  rw [List.foldl_cons, hmasked]
  exact horder.maskChars_around_mark x (maskOne y v.toList)

theorem ApartFromMark.maskChars_occurrence {v : String} (hmark : ApartFromMark (v :: order))
    (hlong : IsLong v.toList) (t : List Char)
    : maskChars (v :: order) (v.toList ++ t) = mark ++ maskChars (v :: order) t := by
  have horder := hmark.mono (List.subset_cons_self v order)
  have hmasked := horder.maskChars_around_mark [] (maskOne t v.toList)
  rw [maskChars_nil] at hmasked
  unfold maskChars at hmasked ⊢
  rw [List.foldl_cons, maskOne_occurrence hlong]
  exact hmasked

theorem OrderFree.swap (h : OrderFree secrets) {v w : String} (hv : v ∈ secrets) (hw : w ∈ secrets)
    (hne : v ≠ w)
    : ∃ rest, v :: w :: rest ⊆ secrets ∧ w :: v :: rest ⊆ secrets ∧
        ∀ s, maskChars (v :: w :: rest) s = maskChars (w :: v :: rest) s := by
  have hw' : w ∈ secrets.erase v := (List.mem_erase_of_ne hne.symm).mpr hw
  have hperm : (v :: w :: (secrets.erase v).erase w).Perm secrets :=
    ((List.perm_cons_erase hw').symm.cons v).trans (List.perm_cons_erase hv).symm
  have hswapped := (List.Perm.swap v w _).trans hperm
  refine ⟨(secrets.erase v).erase w, hperm.subset, hswapped.subset, fun s => ?_⟩
  have heq := h _ _ hperm hswapped (String.ofList s)
  unfold mask at heq
  rw [String.toList_ofList, String.ofList_inj] at heq
  exact heq

variable {v w : String}

theorem OrderFree.not_within (h : OrderFree secrets) (hmark : ApartFromMark secrets)
    (hv : v ∈ secrets) (hw : w ∈ secrets) (hvlong : IsLong v.toList) (hwlong : IsLong w.toList)
    (hne : v ≠ w)
    : ¬ v.toList <:+: w.toList := by
  intro hin
  obtain ⟨rest, hvfirst, hwfirst, hswap⟩ := h.swap hv hw hne
  obtain ⟨x, y, hsplit, hshown⟩ := (hmark.mono hvfirst).maskChars_of_within hvlong hin
  have hhidden := (hmark.mono hwfirst).maskChars_occurrence hwlong []
  rw [maskChars_nil, List.append_nil, List.append_nil, ← hswap, hshown] at hhidden
  have hlength := congrArg List.length hhidden
  simp only [List.length_append] at hlength
  have hx : x = [] :=
    @eq_nil_of_maskChars (w :: rest) x (List.length_eq_zero_iff.mp (by omega))
  have hy : y = [] :=
    @eq_nil_of_maskChars (v :: w :: rest) y (List.length_eq_zero_iff.mp (by omega))
  rw [hx, hy, List.nil_append, List.append_nil] at hsplit
  exact hne (String.toList_inj.mp hsplit.symm)

theorem OrderFree.maskChars_part (h : OrderFree secrets) (hmark : ApartFromMark secrets)
    (hw : w ∈ secrets) (hwlong : IsLong w.toList) {part : List Char} (hpart : part <:+: w.toList)
    (hlength : part.length < w.toList.length) (horder : order ⊆ secrets)
    : maskChars order part = part := by
  apply maskChars_of_not_infix
  intro v hv hvlong hin
  by_cases hvw : v = w
  . have hle := hin.length_le
    rw [hvw] at hle
    omega
  . exact h.not_within hmark (horder hv) hw hvlong hwlong hvw (hin.trans hpart)

theorem eq_nil_or_prefix_of_mark {x b t : List Char} (heq : mark ++ b = x ++ (mark ++ t))
    : x = [] ∨ mark <+: x := by
  have hx : x <+: mark ++ b := by
    rw [heq]
    exact List.prefix_append x _
  obtain ⟨m, hm⟩ | ⟨r, hr, _⟩ := prefix_append_cases hx
  . have hborders : ∀ m ∈ mark.tails, m <+: mark → m = [] ∨ m = mark := by decide
    have hstart : m <+: mark := by
      rw [← hm, List.append_assoc] at heq
      have hbehind := List.append_cancel_left heq
      apply List.prefix_of_prefix_length_le (List.prefix_append m b)
      . rw [hbehind, hm]
        exact List.prefix_append mark t
      . rw [← hm]
        exact (List.suffix_append x m).length_le
    obtain hnil | hwhole := hborders m ((List.mem_tails ..).mpr ⟨x, hm⟩) hstart
    . right
      rw [hnil, List.append_nil] at hm
      rw [hm]
    . left
      rw [hwhole] at hm
      exact List.append_left_eq_self.mp hm
  . right
    rw [hr]
    exact List.prefix_append mark r

theorem OrderFree.ends (h : OrderFree secrets) (hmark : ApartFromMark secrets)
    (hv : v ∈ secrets) (hw : w ∈ secrets) (hvlong : IsLong v.toList) (hwlong : IsLong w.toList)
    (hne : v ≠ w) {o : List Char} (hsuffix : o <:+ v.toList) (hstart : o <+: w.toList)
    : o = [] := by
  by_contra ho
  obtain ⟨a, ha⟩ := hsuffix
  obtain ⟨b, hb⟩ := hstart
  have hpos : 0 < o.length := List.length_pos_iff.mpr ho
  have hvlength := congrArg List.length ha
  have hwlength := congrArg List.length hb
  rw [List.length_append] at hvlength hwlength
  have htext : v.toList ++ b = a ++ w.toList := by
    rw [← ha, ← hb, List.append_assoc]
  obtain ⟨rest, hvfirst, hwfirst, hswap⟩ := h.swap hv hw hne
  -- with `v` first there is a mark at the beginning, with `w` first a part of `v`
  have hvshown := (hmark.mono hvfirst).maskChars_occurrence hvlong b
  have hin : w.toList <:+: v.toList ++ b := by
    rw [htext]
    exact (List.suffix_append a w.toList).isInfix
  obtain ⟨x, y, hsplit, hwshown⟩ := (hmark.mono hwfirst).maskChars_of_within hwlong hin
  have hvprefix : v.toList <+: v.toList ++ b := List.prefix_append v.toList b
  have hxlength : x.length < v.toList.length := by
    have hlength := congrArg List.length (htext.symm.trans hsplit)
    simp only [List.length_append] at hlength
    omega
  have hx : x <+: v.toList := by
    apply List.prefix_of_prefix_length_le _ hvprefix (Nat.le_of_lt hxlength)
    rw [hsplit]
    exact List.prefix_append x _
  have hrest : v :: rest ⊆ secrets :=
    fun u hu => hwfirst (List.mem_cons_of_mem w hu)
  rw [hswap, hwshown, h.maskChars_part hmark hv hvlong hx.isInfix hxlength hrest] at hvshown
  obtain hnil | hmarked := eq_nil_or_prefix_of_mark hvshown.symm
  . have hwprefix : w.toList <+: v.toList ++ b := by
      rw [hsplit, hnil]
      exact List.prefix_append w.toList y
    cases List.prefix_or_prefix_of_prefix hvprefix hwprefix with
    | inl hvw => exact h.not_within hmark hv hw hvlong hwlong hne hvw.isInfix
    | inr hwv => exact h.not_within hmark hw hv hwlong hvlong hne.symm hwv.isInfix
  . exact (hmark v hv hvlong).not_within (hmarked.isInfix.trans hx.isInfix)

theorem OrderFree.pairwiseApart (h : OrderFree secrets) (hmark : ApartFromMark secrets)
    : PairwiseApart secrets := by
  intro v hv w hw hvlong hwlong hne
  constructor
  . exact h.not_within hmark hv hw hvlong hwlong hne
  . exact h.not_within hmark hw hv hwlong hvlong hne.symm
  . exact fun o => h.ends hmark hv hw hvlong hwlong hne
  . exact fun o hstart hsuffix => h.ends hmark hw hv hwlong hvlong hne.symm hsuffix hstart

/--
The order of the secrets makes no difference to any text if and only if no two of them can share a
character of a text.
-/
theorem orderFree_iff_pairwiseApart (hmark : ApartFromMark secrets)
    : OrderFree secrets ↔ PairwiseApart secrets :=
  ⟨fun h => h.pairwiseApart hmark, fun h => h.orderFree hmark⟩

theorem orderFree_of_short_overlap
    : let secrets := ["alpha-1", "beta-22", "a-1"]
      ApartFromMark secrets ∧ PairwiseApart secrets ∧ OrderFree secrets := by
  intro secrets
  have hmark : ApartFromMark secrets := by decide +kernel
  have hapart : PairwiseApart secrets := by decide +kernel
  exact ⟨hmark, hapart, (orderFree_iff_pairwiseApart hmark).mpr hapart⟩

/-- A secret that begins with another one is hidden in one order, and half of it shows in the other. -/
theorem mask_ne_of_prefix
    : mask ["abcd", "abcdefgh"] "key abcdefgh" = "key [REDACTED]efgh" ∧
        mask ["abcdefgh", "abcd"] "key abcdefgh" = "key [REDACTED]" ∧
        ¬ OrderFree ["abcd", "abcdefgh"] := by
  have hshown : mask ["abcd", "abcdefgh"] "key abcdefgh" = "key [REDACTED]efgh" := by
    decide +kernel
  have hhidden : mask ["abcdefgh", "abcd"] "key abcdefgh" = "key [REDACTED]" := by
    decide +kernel
  refine ⟨hshown, hhidden, ?_⟩
  intro hfree
  have heq := hfree _ _ (List.Perm.refl _) (List.Perm.swap ..) "key abcdefgh"
  rw [hshown, hhidden] at heq
  exact absurd heq (by decide)

end Runbook.Masking
