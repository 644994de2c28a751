import Mathlib.Data.List.Induction
import Runbook.Agent.Steps
import Runbook.Proofs.Json

/-!
This module contains what the config of a step binds, for any order of the step's fields. A field
with the key itself comes before all config blocks; of such fields the last one counts, and of the
config blocks the first one that has the key.
-/

namespace Runbook

namespace Agent

open Source

/-- The members of a field that is folded into the config: a field `config` that is a block. -/
def foldedBlock? (field : Entry) : Option Json.Fields :=
  match field.2.toJson with
  | .obj members => if field.1.key = "config" then some members else none
  | _ => none

def isSetting (field : Entry) : Bool :=
  !Step.ownFields.contains field.1.key && (foldedBlock? field).isNone

/-- The value of the last field with a key that stands in the config under its own key. -/
def lastSetting? (fields : List Entry) (key : String) : Option Json :=
  (fields.filter fun field => isSetting field && field.1.key = key).getLast?.map (·.2.toJson)

/-- The value of a key in the first config block that has it. -/
def firstFolded? (fields : List Entry) (key : String) : Option Json :=
  (fields.filterMap foldedBlock?).findSome? (·.get? key)

theorem foldedBlock?_eq_some_iff {field : Entry} {members : Json.Fields}
    : foldedBlock? field = some members
        ↔
      field.1.key = "config" ∧ field.2.toJson = .obj members := by
  unfold foldedBlock?
  split
  next ms hjson =>
    by_cases hkey : field.1.key = "config" <;> simp [hkey, hjson]
  next hjson =>
    simp only [reduceCtorEq, false_iff, not_and]
    exact fun _ => hjson members

section AddField

variable {field : Entry} (config : Json.Fields)

theorem addField_of_own (h : Step.ownFields.contains field.1.key)
    : addField config field = config := by
  unfold addField
  rw [if_pos h]

theorem addField_of_folded {members : Json.Fields} (h : foldedBlock? field = some members)
    : addField config field = foldConfig config members := by
  obtain ⟨hkey, hjson⟩ := foldedBlock?_eq_some_iff.mp h
  unfold addField
  simp only [hkey, hjson]
  rfl

theorem addField_of_setting (h : isSetting field)
    : addField config field = config.insert field.1.key field.2.toJson := by
  simp only [isSetting, Bool.and_eq_true, Bool.not_eq_true', Option.isNone_iff_eq_none] at h
  obtain ⟨hown, hfolded⟩ := h
  unfold addField
  simp only [hown, Bool.false_eq_true, if_false]
  split
  next members hkey hjson =>
    rw [foldedBlock?_eq_some_iff.mpr ⟨hkey, hjson⟩] at hfolded
    contradiction
  next => rfl

theorem field_cases (field : Entry)
    : (Step.ownFields.contains field.1.key ∧ foldedBlock? field = none ∧ isSetting field = false)
      ∨ (∃ members, foldedBlock? field = some members ∧ isSetting field = false)
      ∨ (isSetting field ∧ foldedBlock? field = none) := by
  cases hfolded : foldedBlock? field with
  | some members => exact .inr (.inl ⟨members, rfl, by simp [isSetting, hfolded]⟩)
  | none =>
    cases hown : Step.ownFields.contains field.1.key with
    | true => exact .inl ⟨rfl, rfl, by unfold isSetting; rw [hown]; rfl⟩
    | false => exact .inr (.inr ⟨by unfold isSetting; rw [hown, hfolded]; rfl, rfl⟩)

end AddField

theorem get?_foldConfig (config members : Json.Fields) (key : String)
    : (foldConfig config members).get? key = (config.get? key).or (members.get? key) := by
  induction members generalizing config with
  | nil => simp [foldConfig, Json.Fields.get?]
  | cons member members ih =>
    obtain ⟨k, v⟩ := member
    change (foldConfig (config.insertNew k v) members).get? key = _
    rw [ih, Json.Fields.get?_insertNew, Option.or_assoc]
    by_cases hk : k = key <;> simp [Json.Fields.get?, hk]

theorem keys_foldConfig_nodup {config : Json.Fields} (h : config.keys.Nodup) (members : Json.Fields)
    : (foldConfig config members).keys.Nodup := by
  induction members generalizing config with
  | nil => exact h
  | cons member members ih => exact ih (Json.Fields.keys_insertNew_nodup h _ _)

theorem keys_addField_nodup {config : Json.Fields} (h : config.keys.Nodup) (field : Entry)
    : (addField config field).keys.Nodup := by
  obtain ⟨hown, -, -⟩ | ⟨members, hfolded, -⟩ | ⟨hsetting, -⟩ := field_cases field
  . rw [addField_of_own config hown]
    exact h
  . rw [addField_of_folded config hfolded]
    exact keys_foldConfig_nodup h members
  . rw [addField_of_setting config hsetting]
    exact Json.Fields.keys_insert_nodup h _ _

section Append

variable (fields : List Entry) (field : Entry) (key : String)

theorem lastSetting?_append
    : lastSetting? (fields ++ [field]) key
        =
      if isSetting field && field.1.key = key then some field.2.toJson
      else lastSetting? fields key := by
  unfold lastSetting?
  rw [List.filter_append, List.filter_cons, List.filter_nil]
  split
  next => rw [List.getLast?_append]; rfl
  next => rw [List.append_nil]

theorem firstFolded?_append
    : firstFolded? (fields ++ [field]) key
        =
      (firstFolded? fields key).or ((foldedBlock? field).bind (·.get? key)) := by
  unfold firstFolded?
  rw [List.filterMap_append, List.findSome?_append]
  cases hfolded : foldedBlock? field with
  | none => simp [hfolded]
  | some members => simp [hfolded]

theorem configOf_append : configOf (fields ++ [field]) = addField (configOf fields) field :=
  List.foldl_append ..

end Append

theorem keys_configOf_nodup (fields : List Entry) : (configOf fields).keys.Nodup := by
  induction fields using List.reverseRecOn with
  | nil => exact List.nodup_nil
  | append_singleton fields field ih =>
    rw [configOf_append]
    exact keys_addField_nodup ih field

theorem get?_configOf (fields : List Entry) (key : String)
    : (configOf fields).get? key = (lastSetting? fields key).or (firstFolded? fields key) := by
  -- The fields are read from the front, so the last one is taken off.
  induction fields using List.reverseRecOn with
  | nil => rfl
  | append_singleton fields field ih =>
    rw [configOf_append, lastSetting?_append, firstFolded?_append]
    obtain ⟨hown, hfolded, hsetting⟩ | ⟨members, hfolded, hsetting⟩ | ⟨hsetting, hfolded⟩ :=
      field_cases field
    . rw [addField_of_own _ hown, ih]
      simp [hfolded, hsetting]
    . rw [addField_of_folded _ hfolded, get?_foldConfig, ih]
      simp [hfolded, hsetting, Option.or_assoc]
    . rw [addField_of_setting _ hsetting, Json.Fields.get?_insert, ih]
      by_cases hkey : field.1.key = key <;> simp [hfolded, hsetting, hkey]

theorem readStep_config {site : StepSite} {fields : List Entry} {step : Step}
    (h : (readStep site fields).value = some step) : step.config = configOf fields := by
  unfold readStep at h
  split at h
  next => contradiction
  next =>
    split at h
    next => contradiction
    next =>
      simp only [Noted.bind_value, Noted.pure_value, Option.some.injEq] at h
      rw [← h]

/--
The config of a step has each key once. It binds a key to the value of the last setting with this
key, or else to the value in the first config block that has it, and no other key.
-/
theorem readStep_config_get? {site : StepSite} {fields : List Entry} {step : Step}
    (h : (readStep site fields).value = some step)
    : step.config.keys.Nodup
      ∧ ∀ key, step.config.get? key = (lastSetting? fields key).or (firstFolded? fields key) := by
  rw [readStep_config h]
  exact ⟨keys_configOf_nodup fields, get?_configOf fields⟩

def layeredFields : List Entry :=
  let word (text : String) : Node := .scalar (.atom (.quoted text))
  [(⟨"model", 4, 5, none⟩, word "small"),
    (⟨"config", 5, 5, none⟩, .map
      [(⟨"model", 6, 7, none⟩, word "medium"), (⟨"save", 7, 7, none⟩, word "file"),
        (⟨"tone", 8, 7, none⟩, word "calm"), (⟨"tone", 9, 7, none⟩, word "dry")]),
    (⟨"url", 10, 5, none⟩, word "a"),
    (⟨"config", 11, 5, none⟩, .map
      [(⟨"tone", 12, 7, none⟩, word "loud"), (⟨"url", 13, 7, none⟩, word "b"),
        (⟨"top", 14, 7, none⟩, word "3")]),
    (⟨"save", 15, 5, none⟩, word "answer"),
    (⟨"config", 16, 5, none⟩, word "flat"),
    (⟨"model", 17, 5, none⟩, word "large")]

theorem readStep_config_get?_of_layeredFields
    : let site : StepSite :=
        { id := "ask", head := some ⟨"llm", none⟩, line := 3, column := 3, form := .flat }
      ∃ step, (readStep site layeredFields).value = some step
        ∧ ["model", "url", "tone", "top", "save", "config", "kind"].map step.config.get?
            =
          [some (.str "large"), some (.str "a"), some (.str "dry"), some (.str "3"),
            some (.str "file"), some (.str "flat"), none] := by
  intro site
  have hstep : (readStep site layeredFields).value = some _ := rfl
  refine ⟨_, hstep, ?_⟩
  rw [funext (readStep_config_get? hstep).2]
  rfl

end Agent

end Runbook
