import Mathlib.Tactic.MkIffOfInductiveProp
import Runbook.Proofs.Errors

/-!
This module contains where the problems that come with a value stand: problems on the first lines of
a text, and values all of whose problems stand there.
-/

namespace Runbook

namespace Diagnostic

@[simp]
theorem withContext_line (d : Diagnostic) (line : String) : (d.withContext line).line = d.line := by
  unfold withContext
  split <;> rfl

@[simp]
theorem withContext_column (d : Diagnostic) (line : String)
    : (d.withContext line).column = d.column := by
  unfold withContext
  split <;> rfl

@[simp]
theorem withSuggestion_line (d : Diagnostic) (hint : String)
    : (d.withSuggestion hint).line = d.line := rfl

@[simp]
theorem withSuggestion_column (d : Diagnostic) (hint : String)
    : (d.withSuggestion hint).column = d.column := rfl

@[simp]
theorem error_line (line column : Nat) (message : String)
    : (Diagnostic.error line column message).line = max 1 line := rfl

@[simp]
theorem error_column (line column : Nat) (message : String)
    : (Diagnostic.error line column message).column = max 1 column := rfl

@[simp]
theorem warning_line (line column : Nat) (message : String)
    : (Diagnostic.warning line column message).line = max 1 line := rfl

@[simp]
theorem warning_column (line column : Nat) (message : String)
    : (Diagnostic.warning line column message).column = max 1 column := rfl

/-- A problem that stands on one of the first `n` lines of a text. -/
@[mk_iff]
structure IsWithin (n : Nat) (d : Diagnostic) : Prop where
  line_pos : 1 ≤ d.line
  line_le : d.line ≤ n
  column_pos : 1 ≤ d.column

variable {n : Nat}

@[simp]
theorem withContext_isWithin_iff (d : Diagnostic) (line : String)
    : (d.withContext line).IsWithin n ↔ d.IsWithin n := by
  simp [isWithin_iff]

@[simp]
theorem withSuggestion_isWithin_iff (d : Diagnostic) (hint : String)
    : (d.withSuggestion hint).IsWithin n ↔ d.IsWithin n := by
  simp [isWithin_iff]

@[simp]
theorem error_isWithin_iff (line column : Nat) (message : String)
    : (Diagnostic.error line column message).IsWithin n ↔ 1 ≤ n ∧ line ≤ n := by
  simp only [isWithin_iff, error_line, error_column]
  omega

@[simp]
theorem warning_isWithin_iff (line column : Nat) (message : String)
    : (Diagnostic.warning line column message).IsWithin n ↔ 1 ≤ n ∧ line ≤ n := by
  simp only [isWithin_iff, warning_line, warning_column]
  omega

end Diagnostic

namespace Noted

variable {α β : Type} {n : Nat}

def IsWithin (n : Nat) (a : Noted α) : Prop :=
  ∀ d ∈ a.notes, d.IsWithin n

@[simp]
theorem isWithin_nil (value : α) : IsWithin n ⟨value, []⟩ := by
  simp [IsWithin]

@[simp]
theorem isWithin_cons_iff (value : α) (d : Diagnostic) (ds : List Diagnostic)
    : IsWithin n ⟨value, d :: ds⟩ ↔ d.IsWithin n ∧ IsWithin n (⟨value, ds⟩ : Noted α) := by
  simp [IsWithin]

@[simp]
theorem isWithin_append_iff (value : α) (ds es : List Diagnostic)
    : IsWithin n ⟨value, ds ++ es⟩
        ↔
      IsWithin n (⟨value, ds⟩ : Noted α) ∧ IsWithin n (⟨value, es⟩ : Noted α) := by
  simp [IsWithin, or_imp, forall_and]

@[simp]
theorem isWithin_notes_iff (value : α) (a : Noted β) : IsWithin n ⟨value, a.notes⟩ ↔ a.IsWithin n :=
  Iff.rfl

@[simp]
theorem isWithin_pure (value : α) : (pure value : Noted α).IsWithin n := by
  simp [IsWithin]

@[simp]
theorem isWithin_note_iff (d : Diagnostic) : (note d).IsWithin n ↔ d.IsWithin n := by
  simp [IsWithin, note]

@[simp]
theorem isWithin_bind_iff (a : Noted α) (f : α → Noted β)
    : (a >>= f).IsWithin n ↔ a.IsWithin n ∧ (f a.value).IsWithin n := by
  simp [IsWithin, or_imp, forall_and]

@[simp]
theorem isWithin_mapAll_iff (f : α → Noted β) (xs : List α)
    : (mapAll f xs).IsWithin n ↔ ∀ x ∈ xs, (f x).IsWithin n := by
  unfold IsWithin mapAll
  simp only [List.mem_flatMap]
  constructor
  . intro h x hx d hd
    exact h d ⟨x, hx, hd⟩
  . rintro h d ⟨x, hx, hd⟩
    exact h x hx d hd

theorem isWithin_foldlM {f : β → α → Noted β} {xs : List α}
    (h : ∀ b, ∀ x ∈ xs, (f b x).IsWithin n) (b : β)
    : (xs.foldlM f b).IsWithin n := by
  induction xs generalizing b with
  | nil => exact isWithin_pure b
  | cons x rest ih =>
    rw [List.foldlM_cons, isWithin_bind_iff]
    exact ⟨h b x List.mem_cons_self, ih (fun b y hy => h b y (List.mem_cons_of_mem x hy)) _⟩

end Noted

end Runbook
