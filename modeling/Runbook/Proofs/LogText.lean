import Runbook.Log
import Runbook.Masking

/-!
This module contains what the texts of a log are made of. Neither the escapes nor the marks that
stand in the place of secrets hold a control character, so that a safe text holds none.
-/

namespace Runbook

open Text

namespace LogText

def CleanChars (s : List Char) : Prop :=
  ∀ c ∈ s, isControl c = false

instance (s : List Char) : Decidable (CleanChars s) :=
  decidable_of_iff (s.all (!isControl ·) = true) (by simp [CleanChars])

/-- A text without control characters. -/
def IsClean (text : String) : Prop :=
  CleanChars text.toList

instance (text : String) : Decidable (IsClean text) :=
  inferInstanceAs (Decidable (CleanChars text.toList))

theorem isClean_ofList {s : List Char} : IsClean (String.ofList s) ↔ CleanChars s := by
  unfold IsClean
  rw [String.toList_ofList]

@[simp]
theorem isClean_empty : IsClean "" := by
  decide

def escapeChars : List Char :=
  "nrtu0123456789abcdef".toList

theorem hexDigit_mem_escapeChars (n : Nat) : hexDigit n ∈ escapeChars := by
  have hdigits : '0' :: "0123456789abcdef".toList ⊆ escapeChars := by decide
  apply hdigits
  unfold hexDigit
  rw [List.getD_eq_getElem?_getD]
  cases hget : "0123456789abcdef".toList[n]? with
  | none => exact List.mem_cons_self
  | some c => exact List.mem_cons_of_mem _ (List.mem_of_getElem? hget)

theorem hex_subset_escapeChars (width n : Nat) : hex width n ⊆ escapeChars := by
  induction width generalizing n with
  | zero => exact List.nil_subset _
  | succ w ih =>
    unfold hex
    rw [List.append_subset, List.cons_subset]
    exact ⟨ih (n / 16), hexDigit_mem_escapeChars (n % 16), List.nil_subset _⟩

theorem escape_cases (c : Char)
    : isControl c = false ∧ escape c = [c] ∨
        isControl c = true ∧ ∃ code, escape c = '\\' :: code ∧ code ⊆ escapeChars := by
  unfold escape
  split
  . next hc =>
    subst hc
    exact .inr ⟨rfl, ['n'], rfl, by decide⟩
  split
  . next hc =>
    subst hc
    exact .inr ⟨rfl, ['r'], rfl, by decide⟩
  split
  . next hc =>
    subst hc
    exact .inr ⟨rfl, ['t'], rfl, by decide⟩
  split
  . next hc =>
    subst hc
    exact .inr ⟨rfl, ['e'], rfl, by decide⟩
  split
  . next hc =>
    subst hc
    exact .inr ⟨rfl, ['0'], rfl, by decide⟩
  split
  . next hcontrol =>
    refine .inr ⟨hcontrol, 'u' :: hex 4 c.toNat, rfl, ?_⟩
    rw [List.cons_subset]
    exact ⟨by decide, hex_subset_escapeChars 4 c.toNat⟩
  . next hcontrol =>
    exact .inl ⟨by simpa using hcontrol, rfl⟩

theorem escape_clean (c : Char) : CleanChars (escape c) := by
  have hclean : CleanChars ('\\' :: escapeChars) := by decide
  obtain ⟨hcontrol, hescape⟩ | ⟨_, code, hescape, hcode⟩ := escape_cases c
  . rw [hescape]
    unfold CleanChars
    rw [List.forall_mem_singleton]
    exact hcontrol
  . rw [hescape]
    intro d hd
    exact hclean d (List.cons_subset_cons _ hcode hd)

theorem sanitize_isClean (text : String) : IsClean (sanitize text) := by
  unfold sanitize
  rw [isClean_ofList]
  intro c hc
  obtain ⟨d, _, hd⟩ := List.mem_flatMap.mp hc
  exact escape_clean d c hd

theorem CleanChars.replaceAll {α : Type} {s new : List Char} (h : CleanChars s)
    (hnew : CleanChars new) (find? : List Char → Option (α × Nat))
    : CleanChars (replaceAll find? new s) := by
  intro c hc
  obtain hs | hc := mem_replaceAll hc
  . exact h c hs
  . exact hnew c hc

theorem redact_isClean {text : String} (h : IsClean text) : IsClean (Credential.redact text) := by
  have hmarks : ∀ shape ∈ Credential.catalogue,
      CleanChars (shape.name ++ "=" ++ redacted).toList := by
    decide
  unfold Credential.redact Credential.redactChars
  rw [isClean_ofList]
  apply List.foldlRecOn
  . exact h
  . intro s hs shape hshape
    exact hs.replaceAll (hmarks shape hshape) shape.find?

@[simp]
theorem safe_isClean (text : String) : IsClean (safe text) :=
  redact_isClean (sanitize_isClean text)

theorem mask_isClean (secrets : List String) {text : String} (h : IsClean text)
    : IsClean (Masking.mask secrets text) := by
  have hmark : CleanChars redacted.toList := by decide
  unfold Masking.mask Masking.maskChars
  rw [isClean_ofList]
  apply List.foldlRecOn
  . exact h
  . intro s hs secret _
    unfold Masking.maskOne
    split
    . exact hs.replaceAll hmark _
    . exact hs

@[simp]
theorem number_isClean (n : Nat) : IsClean (Record.number n) := by
  intro c hc
  have hdigits : (Record.number n).toList = Nat.toDigits 10 n := by
    simp [Record.number, ToString.toString, Nat.repr]
  rw [hdigits] at hc
  have hdigit := Nat.isDigit_of_mem_toDigits (by decide : 0 < 10) (by decide) hc
  rw [Char.isDigit_iff_toNat] at hdigit
  have hlow : 48 ≤ c.toNat := hdigit.1
  have hhigh : c.toNat ≤ 57 := hdigit.2
  unfold isControl
  simp only [Bool.or_eq_false_iff, Bool.and_eq_false_iff, decide_eq_false_iff_not]
  omega

@[simp]
theorem flag_isClean (b : Bool) : IsClean (Record.flag b) := by
  cases b <;> decide

end LogText

/-- A record none of whose fields holds a control character. -/
def Record.IsClean (record : Record) : Prop :=
  ∀ field ∈ record.fields, LogText.IsClean field.2

namespace Record

instance (record : Record) : Decidable record.IsClean :=
  inferInstanceAs (Decidable (∀ field ∈ record.fields, LogText.IsClean field.2))

variable {name message : String} {fields : List LogField}

@[simp]
theorem isClean_debug
    : (debug message fields).IsClean ↔ ∀ field ∈ fields, LogText.IsClean field.2 := Iff.rfl

@[simp]
theorem isClean_info
    : (info message fields).IsClean ↔ ∀ field ∈ fields, LogText.IsClean field.2 := Iff.rfl

@[simp]
theorem isClean_warn
    : (warn message fields).IsClean ↔ ∀ field ∈ fields, LogText.IsClean field.2 := Iff.rfl

@[simp]
theorem isClean_span
    : (span name fields).IsClean ↔ ∀ field ∈ fields, LogText.IsClean field.2 := Iff.rfl

@[simp]
theorem isClean_learned {field : LogField}
    : (learned name field).IsClean ↔ LogText.IsClean field.2 := List.forall_mem_singleton

end Record

end Runbook
