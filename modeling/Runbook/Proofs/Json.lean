import Mathlib.Data.List.Nodup
import Runbook.Json

/-!
This module contains the keys of objects: which key has a value, and what keeps keys distinct.
-/

namespace Runbook

namespace Json.Fields

theorem get?_append (fields others : Fields) (key : String)
    : (fields ++ others).get? key = (fields.get? key).or (others.get? key) := by
  induction fields with
  | nil => rfl
  | cons field fields ih =>
    obtain ⟨k, v⟩ := field
    by_cases hk : k = key
    . simp [get?, hk]
    . simp [get?, hk, ih]

theorem get?_insertNew (key other : String) (value : Json) (fields : Fields)
    : (insertNew key value fields).get? other
        =
      (fields.get? other).or (if key = other then some value else none) := by
  unfold insertNew
  split
  next hpresent =>
    by_cases hother : key = other
    . subst hother
      obtain ⟨old, hold⟩ := Option.isSome_iff_exists.mp hpresent
      simp [hold]
    . simp [hother]
  next =>
    rw [get?_append]
    rfl

theorem get?_isSome_iff {fields : Fields} {key : String}
    : (fields.get? key).isSome ↔ key ∈ fields.keys := by
  induction fields with
  | nil => simp [get?, keys]
  | cons field fields ih =>
    obtain ⟨k, v⟩ := field
    by_cases hk : k = key
    . simp [get?, keys, hk]
    . simp only [keys] at ih
      simp [get?, keys, hk, Ne.symm hk, ih]

theorem keys_insert_nodup {fields : Fields} (h : fields.keys.Nodup) (key : String) (value : Json)
    : (fields.insert key value).keys.Nodup := by
  rw [keys_insert]
  split
  next => exact h
  next hnew => exact List.nodup_append.mpr ⟨h, by simp, by grind⟩

theorem keys_insertNew_nodup {fields : Fields} (h : fields.keys.Nodup) (key : String) (value : Json)
    : (fields.insertNew key value).keys.Nodup := by
  unfold insertNew
  split
  next => exact h
  next hnew =>
    rw [get?_isSome_iff] at hnew
    have hkeys : (fields ++ [(key, value)]).keys = fields.keys ++ [key] := by simp [keys]
    rw [hkeys]
    exact List.nodup_append.mpr ⟨h, by simp, by grind⟩

end Json.Fields

end Runbook
