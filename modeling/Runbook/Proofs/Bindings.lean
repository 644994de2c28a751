import Runbook.Proofs.Masking

/-!
This module contains what a view of bindings shows of them: all names in their order, marks in the
places of secrets, and no secret that is bound at the time within any other value.
-/

namespace Runbook.Bindings

open Masking Json Text

@[simp]
theorem set_secretNames (b : Bindings) (name : String) (value : Json)
    : (b.set name value).secretNames = b.secretNames := rfl

theorem mem_secretNames_setSecret {b : Bindings} {name text other : String}
    : other ∈ (b.setSecret name text).secretNames ↔ other ∈ b.secretNames ∨ other = name := by
  unfold setSecret
  dsimp only
  split
  . next hmem =>
    refine ⟨.inl, ?_⟩
    rintro (h | rfl)
    . exact h
    . exact hmem
  . rw [List.mem_append, List.mem_singleton]

/-- A change to bindings. -/
inductive Change where
  | value (name : String) (value : Json)
  | secret (name value : String)

def change (b : Bindings) : Change → Bindings
  | .value name value => b.set name value
  | .secret name value => b.setSecret name value

/-- The bindings that changes lead to, one after another. -/
def ofChanges (changes : List Change) : Bindings :=
  changes.foldl change {}

theorem keys_maskedBy (b : Bindings) (secrets : List String)
    : (b.maskedBy secrets).keys = b.values.keys := by
  unfold maskedBy Fields.keys
  rw [List.map_map]
  rfl

theorem get?_maskedBy (b : Bindings) (secrets : List String) (name : String)
    : (b.maskedBy secrets).get? name
        =
      (b.get? name).map fun value =>
        if b.isSecret name then .str redacted else maskJson secrets value := by
  unfold maskedBy get?
  induction b.values with
  | nil => rfl
  | cons field rest ih =>
    obtain ⟨key, value⟩ := field
    rw [List.map_cons]
    unfold Fields.get?
    split
    . next heq => rw [heq, Option.map_some]
    . exact ih

def SecretsBound (b : Bindings) : Prop :=
  ∀ name, b.isSecret name → (b.get? name).isSome

theorem SecretsBound.change {b : Bindings} (h : b.SecretsBound) (c : Change)
    : (b.change c).SecretsBound := by
  intro name hsecret
  unfold Bindings.change at hsecret ⊢
  cases c with
  | value other value =>
    have hbound := h name hsecret
    rw [get?_set]
    split
    . rfl
    . exact hbound
  | secret other value =>
    unfold isSecret at hsecret
    rw [List.contains_iff_mem, mem_secretNames_setSecret] at hsecret
    rw [get?_setSecret]
    split
    . rfl
    . next hother =>
      cases hsecret with
      | inl hold => exact h name (List.contains_iff_mem.mpr hold)
      | inr hname => exact absurd hname.symm hother

theorem secretsBound_ofChanges (changes : List Change) : (ofChanges changes).SecretsBound := by
  have hempty : ({} : Bindings).SecretsBound := by
    intro name hsecret
    cases hsecret
  unfold ofChanges
  generalize ({} : Bindings) = b at hempty
  induction changes generalizing b with
  | nil => exact hempty
  | cons c rest ih => exact ih _ (hempty.change c)

/--
Bindings show all of their names in their order, with a mark for each secret. However the secrets
that are bound are put in order to hide them, none of them is left in any text that is shown.
-/
theorem current_secrets_hidden (changes : List Change) {order : List String}
    (horder : order.Perm (ofChanges changes).secretValues)
    (hmask : ∀ v ∈ order, leastBytes ≤ byteSize v.toList → Maskable v.toList)
    : let b := ofChanges changes
      let view := b.maskedBy order
      view.keys = b.values.keys ∧
      (∀ name, b.isSecret name → view.get? name = some (.str redacted)) ∧
      ∀ v ∈ b.secretValues, leastBytes ≤ byteSize v.toList →
        (∀ s ∈ fieldStrings view, ¬ v.toList <:+: s.toList) ∧
        ∀ text, ¬ v.toList <:+: (mask order text).toList := by
  intro b view
  refine ⟨keys_maskedBy b order, ?_, ?_⟩
  . intro name hsecret
    obtain ⟨value, hvalue⟩ := Option.isSome_iff_exists.mp
      (secretsBound_ofChanges changes name hsecret)
    rw [get?_maskedBy, hvalue, Option.map_some, if_pos hsecret]
  . intro v hv hlong
    have hmem : v ∈ order := horder.mem_iff.mpr hv
    have hmaskable := hmask v hmem hlong
    exact ⟨not_infix_of_mem_maskedBy hmaskable hmem, hmaskable.not_infix_mask hmem⟩

theorem current_secrets_hidden_of_overlapping
    : let changes : List Change :=
        [.secret "OLD" "secret-value", .secret "NEW" "value-secret",
          .value "echo" (.obj [("header", .arr [.str "Bearer secret-value-secret"])]),
          .value "OLD" (.str "et-val")]
      let b := ofChanges changes
      let order := ["value-secret", "et-val"]
      order.Perm b.secretValues ∧
      (∀ v ∈ order, leastBytes ≤ byteSize v.toList → Maskable v.toList) ∧
      (b.maskedBy order).keys = ["OLD", "NEW", "echo"] ∧
      (b.maskedBy order).get? "OLD" = some (.str redacted) ∧
      ∀ v ∈ b.secretValues,
        (∀ s ∈ fieldStrings (b.maskedBy order), ¬ v.toList <:+: s.toList) ∧
        ∀ text, ¬ v.toList <:+: (mask order text).toList := by
  intro changes b order
  have hvalues : b.secretValues = ["et-val", "value-secret"] := by
    decide +kernel
  have horder : order.Perm b.secretValues := by
    rw [hvalues]
    exact List.Perm.swap ..
  have hmask : ∀ v ∈ order, leastBytes ≤ byteSize v.toList → Maskable v.toList := by
    have hfirst : Maskable "value-secret".toList := by
      constructor <;> decide +kernel
    have hsecond : Maskable "et-val".toList := by
      constructor <;> decide +kernel
    simp only [order, List.forall_mem_cons]
    exact ⟨fun _ => hfirst, fun _ => hsecond, List.forall_mem_nil _⟩
  have hlong : ∀ v ∈ b.secretValues, leastBytes ≤ byteSize v.toList := by
    rw [hvalues]
    decide +kernel
  obtain ⟨hkeys, hmarks, hhidden⟩ := current_secrets_hidden changes horder hmask
  refine ⟨horder, hmask, hkeys, hmarks "OLD" (by decide +kernel), ?_⟩
  exact fun v hv => hhidden v hv (hlong v hv)

end Runbook.Bindings
