import Runbook.Bindings
import Runbook.Proofs.Masking.Occurrence

/-!
This module contains what masking achieves: no masked text has the secret in it any more, whatever
else was masked in it before or after.
-/

namespace Runbook

namespace Text

theorem infix_of_infix_append_cons {w a b : List Char} {c : Char} (hc : c ∉ w)
    (h : w <:+: a ++ c :: b)
    : w <:+: a ∨ w <:+: b := by
  induction a with
  | nil =>
    rw [List.nil_append, List.infix_cons_iff] at h
    cases h with
    | inl hpre =>
      rw [List.prefix_cons_iff] at hpre
      cases hpre with
      | inl hnil =>
        subst hnil
        exact .inl List.nil_infix
      | inr hcons =>
        obtain ⟨t, ht, _⟩ := hcons
        rw [ht] at hc
        simp at hc
    | inr hin =>
      right
      exact hin
  | cons d a ih =>
    rw [List.cons_append, List.infix_cons_iff] at h
    cases h with
    | inl hpre =>
      left
      obtain ⟨rest, hrest⟩ := hpre
      -- the part before `c` is long enough, since `w` would have `c` in it otherwise
      have hlength : w.length ≤ (d :: a).length := by
        apply Nat.le_of_not_lt
        intro hlt
        apply hc
        have hget : w[(d :: a).length]? = some c := by
          have hsome : (w ++ rest)[(d :: a).length]? = some c := by
            rw [hrest]
            simp
          rw [List.getElem?_append_left hlt] at hsome
          exact hsome
        exact List.mem_of_getElem? hget
      apply List.IsPrefix.isInfix
      apply List.prefix_of_prefix_length_le
      . exact ⟨rest, hrest⟩
      . exact List.prefix_append (d :: a) (c :: b)
      . exact hlength
    | inr hin =>
      cases ih hin with
      | inl ha =>
        left
        rw [List.infix_cons_iff]
        right
        exact ha
      | inr hb =>
        right
        exact hb

end Text

namespace Masking

open Text

/--
A secret that masking can hide: it is long enough, and nothing of it can come from the marks that
stand in the places of secrets.
-/
structure Maskable (w : List Char) : Prop where
  long : leastBytes ≤ byteSize w
  opening : '[' ∉ w
  closing : ']' ∉ w
  apart : ¬ w <:+: "REDACTED".toList

variable {w : List Char}

theorem Maskable.ne_nil (h : Maskable w) : w ≠ [] := by
  intro hnil
  apply h.apart
  rw [hnil]
  exact List.nil_infix

theorem Maskable.infix_of_mark (h : Maskable w) {s : List Char}
    (hin : w <:+: redacted.toList ++ s)
    : w <:+: s := by
  have hmark : redacted.toList ++ s = [] ++ '[' :: ("REDACTED".toList ++ ']' :: s) := rfl
  rw [hmark] at hin
  cases infix_of_infix_append_cons h.opening hin with
  | inl hnil =>
    rw [List.infix_nil] at hnil
    exact absurd hnil h.ne_nil
  | inr hword =>
    cases infix_of_infix_append_cons h.closing hword with
    | inl hinside => exact absurd hinside h.apart
    | inr hbehind => exact hbehind

theorem Maskable.not_infix_redacted (h : Maskable w) : ¬ w <:+: redacted.toList := by
  intro hin
  have hnil : w <:+: [] := by
    apply h.infix_of_mark
    rw [List.append_nil]
    exact hin
  rw [List.infix_nil] at hnil
  exact h.ne_nil hnil

theorem Maskable.apart_mark {w : List Char} (h : Maskable w) : Apart mark w where
  not_within hin := h.opening (hin.subset (by decide))
  not_around := h.not_infix_redacted
  ends o hsuffix hstart := by
    have htails : ∀ o ∈ mark.tails, o = [] ∨ ']' ∈ o := by decide
    cases htails o ((List.mem_tails ..).mpr hsuffix) with
    | inl hnil => exact hnil
    | inr hclosing => exact absurd (hstart.subset hclosing) h.closing
  begins o hstart hsuffix := by
    have hinits : ∀ o ∈ mark.inits, o = [] ∨ '[' ∈ o := by decide
    cases hinits o ((List.mem_inits ..).mpr hstart) with
    | inl hnil => exact hnil
    | inr hopening => exact absurd (hsuffix.subset hopening) h.opening

theorem Maskable.infix_of_infix_maskOne (h : Maskable w) {v : List Char} (hlong : IsLong v)
    {s : List Char} (hin : w <:+: maskOne s v)
    : w <:+: s := by
  induction s using mask_induction hlong with
  | nil =>
    rw [maskOne_nil] at hin
    exact hin
  | occurrence rest ih =>
    rw [maskOne_occurrence hlong] at hin
    exact (ih (h.infix_of_mark hin)).trans (List.suffix_append v rest).isInfix
  | char c cs hnone ih =>
    rw [maskOne_cons hnone, List.infix_cons_iff] at hin
    rw [List.infix_cons_iff]
    cases hin with
    | inl hpre => exact .inl (prefix_of_prefix_maskOne h.apart_mark hlong cs (u := [c]) hpre)
    | inr hrest => exact .inr (ih hrest)

theorem Maskable.not_infix_maskOne_of_not_infix (h : Maskable w) (secret : List Char)
    {s : List Char} (hs : ¬ w <:+: s)
    : ¬ w <:+: maskOne s secret := by
  by_cases hlong : IsLong secret
  . exact fun hin => hs (h.infix_of_infix_maskOne hlong hin)
  . rw [maskOne_of_not_isLong hlong]
    exact hs

theorem Maskable.not_infix_maskOne (h : Maskable w) (s : List Char) : ¬ w <:+: maskOne s w := by
  induction s using mask_induction h.long with
  | nil =>
    rw [maskOne_nil, List.infix_nil]
    exact h.ne_nil
  | occurrence rest ih =>
    rw [maskOne_occurrence h.long]
    exact fun hin => ih (h.infix_of_mark hin)
  | char c cs hnone ih =>
    rw [maskOne_cons hnone, List.infix_cons_iff]
    rintro (hpre | hrest)
    . exact hnone (prefix_of_prefix_maskOne h.apart_mark h.long cs (u := [c]) hpre)
    . exact ih hrest

theorem Maskable.not_infix_maskChars_of_not_infix (h : Maskable w) (secrets : List String)
    {s : List Char} (hs : ¬ w <:+: s)
    : ¬ w <:+: maskChars secrets s := by
  induction secrets generalizing s with
  | nil => exact hs
  | cons secret rest ih =>
    apply ih
    exact h.not_infix_maskOne_of_not_infix secret.toList hs

theorem Maskable.not_infix_maskChars {v : String} (h : Maskable v.toList) {secrets : List String}
    (hmem : v ∈ secrets) (s : List Char)
    : ¬ v.toList <:+: maskChars secrets s := by
  -- the text is masked with one secret after another, and none of those behind brings `v` back
  induction secrets generalizing s with
  | nil => cases hmem
  | cons secret rest ih =>
    cases hmem with
    | head =>
      apply h.not_infix_maskChars_of_not_infix rest
      apply h.not_infix_maskOne
    | tail _ hrest => exact ih hrest _

theorem Maskable.not_infix_mask {v : String} (h : Maskable v.toList) {secrets : List String}
    (hmem : v ∈ secrets) (text : String)
    : ¬ v.toList <:+: (mask secrets text).toList := by
  unfold mask
  rw [String.toList_ofList]
  exact h.not_infix_maskChars hmem text.toList

end Masking

namespace Json

mutual

/-- All strings in a value, keys aside. -/
def strings : Json → List String
  | .str s => [s]
  | .arr items => itemStrings items
  | .obj fields => fieldStrings fields
  | _ => []

def itemStrings : List Json → List String
  | [] => []
  | v :: vs => strings v ++ itemStrings vs

/-- All strings in the values of an object. -/
def fieldStrings : List (String × Json) → List String
  | [] => []
  | (_, v) :: fs => strings v ++ fieldStrings fs

end

end Json

namespace Masking

open Json

mutual

theorem strings_maskJson (secrets : List String) (value : Json)
    : (maskJson secrets value).strings = value.strings.map (mask secrets) := by
  cases value with
  | str s => rfl
  | arr items =>
    unfold maskJson strings
    exact itemStrings_maskItems secrets items
  | obj fields =>
    unfold maskJson strings
    exact fieldStrings_maskFields secrets fields
  | null => rfl
  | bool b => rfl
  | int n => rfl
  | float x => rfl

theorem itemStrings_maskItems (secrets : List String) (items : List Json)
    : itemStrings (maskItems secrets items) = (itemStrings items).map (mask secrets) := by
  cases items with
  | nil => rfl
  | cons v vs =>
    unfold maskItems itemStrings
    rw [List.map_append]
    rw [strings_maskJson, itemStrings_maskItems]

theorem fieldStrings_maskFields (secrets : List String) (fields : List (String × Json))
    : fieldStrings (maskFields secrets fields) = (fieldStrings fields).map (mask secrets) := by
  cases fields with
  | nil => rfl
  | cons field fs =>
    obtain ⟨k, v⟩ := field
    unfold maskFields fieldStrings
    rw [List.map_append]
    rw [strings_maskJson, fieldStrings_maskFields]

end

theorem Maskable.not_infix_of_mem_strings {v : String} (h : Maskable v.toList)
    {secrets : List String} (hmem : v ∈ secrets) (value : Json)
    : ∀ s ∈ (maskJson secrets value).strings, ¬ v.toList <:+: s.toList := by
  intro s hs
  rw [strings_maskJson, List.mem_map] at hs
  obtain ⟨text, _, rfl⟩ := hs
  exact h.not_infix_mask hmem text

end Masking

namespace Bindings

open Masking Json

def Holds (b : Bindings) (name v : String) : Prop :=
  b.isSecret name ∧ ∃ value, b.get? name = some value ∧ String.ofList (Template.valueText value) = v

variable {b : Bindings} {name v : String}

theorem Holds.mem_secretValues (h : b.Holds name v) : v ∈ b.secretValues := by
  obtain ⟨hsecret, value, hvalue, hv⟩ := h
  unfold secretValues
  rw [List.mem_filterMap]
  refine ⟨name, ?_, ?_⟩
  . unfold isSecret at hsecret
    rw [List.contains_iff_mem] at hsecret
    exact (b.order.perm b.secretNames).mem_iff.mpr hsecret
  . rw [hvalue]
    simp [hv]

theorem Holds.set (h : b.Holds name v) {other : String} (hother : other ≠ name) (value : Json)
    : (b.set other value).Holds name v := by
  obtain ⟨hsecret, bound, hbound, hv⟩ := h
  refine ⟨hsecret, bound, ?_, hv⟩
  rw [get?_set, if_neg hother]
  exact hbound

theorem Holds.setSecret (h : b.Holds name v) {other text : String}
    (hother : other = name → text = v)
    : (b.setSecret other text).Holds name v := by
  obtain ⟨hsecret, bound, hbound, hv⟩ := h
  constructor
  . unfold isSecret Bindings.setSecret at *
    dsimp only
    split
    . exact hsecret
    . rw [List.contains_iff_mem] at *
      exact List.mem_append_left [other] hsecret
  . rw [get?_setSecret]
    split
    . next hname =>
      refine ⟨.str text, rfl, ?_⟩
      rw [← hother hname]
      simp [Template.valueText]
    . exact ⟨bound, hbound, hv⟩

theorem not_infix_of_mem_maskedBy (hmask : Maskable v.toList) {secrets : List String}
    (hmem : v ∈ secrets)
    : ∀ s ∈ fieldStrings (b.maskedBy secrets), ¬ v.toList <:+: s.toList := by
  unfold maskedBy
  induction b.values with
  | nil =>
    intro s hs
    cases hs
  | cons field rest ih =>
    obtain ⟨key, value⟩ := field
    intro s hs
    rw [List.map_cons] at hs
    unfold fieldStrings at hs
    rw [List.mem_append] at hs
    cases hs with
    | inl hfirst =>
      split at hfirst
      . rw [strings, List.mem_singleton] at hfirst
        rw [hfirst]
        exact hmask.not_infix_redacted
      . exact hmask.not_infix_of_mem_strings hmem value s hfirst
    | inr hrest => exact ih s hrest

theorem Holds.not_infix_of_mem_masked (h : b.Holds name v) (hmask : Maskable v.toList)
    : ∀ s ∈ fieldStrings b.masked, ¬ v.toList <:+: s.toList :=
  not_infix_of_mem_maskedBy hmask h.mem_secretValues

end Bindings

end Runbook
