import Runbook.Diagnostic

/-!
This module contains the errors among the problems that come with a value. Where there are none, the
value stands; warnings do not count.
-/

namespace Runbook

@[simp]
theorem Diagnostic.withContext_severity (d : Diagnostic) (line : String)
    : (d.withContext line).severity = d.severity := by
  unfold withContext
  split <;> rfl

@[simp]
theorem Diagnostic.withContext_message (d : Diagnostic) (line : String)
    : (d.withContext line).message = d.message := by
  unfold withContext
  split <;> rfl

@[simp]
theorem Diagnostic.withSuggestion_severity (d : Diagnostic) (hint : String)
    : (d.withSuggestion hint).severity = d.severity := rfl

@[simp]
theorem Diagnostic.error_severity (line column : Nat) (message : String)
    : (Diagnostic.error line column message).severity = .error := rfl

@[simp]
theorem Diagnostic.warning_severity (line column : Nat) (message : String)
    : (Diagnostic.warning line column message).severity = .warning := rfl

/-- The errors among problems, in their order. -/
def errorsAmong (ds : List Diagnostic) : List Diagnostic :=
  (Report.ofList ds).errors

@[simp]
theorem errorsAmong_nil : errorsAmong [] = [] := rfl

@[simp]
theorem errorsAmong_append (ds es : List Diagnostic)
    : errorsAmong (ds ++ es) = errorsAmong ds ++ errorsAmong es := by
  unfold errorsAmong Report.ofList
  rw [List.filter_append]

@[simp]
theorem errorsAmong_cons (d : Diagnostic) (ds : List Diagnostic)
    : errorsAmong (d :: ds)
        =
      if d.severity = .error then d :: errorsAmong ds else errorsAmong ds := by
  unfold errorsAmong Report.ofList
  simp only [List.filter_cons, decide_eq_true_eq]

theorem errorsAmong_eq_nil_iff {ds : List Diagnostic}
    : errorsAmong ds = [] ↔ .error ∉ ds.map Diagnostic.severity := by
  unfold errorsAmong Report.ofList
  simp

theorem Report.sorted_errors_eq_nil_iff (ds : List Diagnostic)
    : (ofList ds).sorted.errors = [] ↔ errorsAmong ds = [] := by
  have hlength : (ofList ds).sorted.errors.length = (errorsAmong ds).length :=
    List.length_mergeSort _
  rw [← List.length_eq_zero_iff, hlength, List.length_eq_zero_iff]

namespace Noted

variable {α β : Type}

theorem mapAll_cons {f : α → Noted β} {x : α} {xs : List α} {y : β} {ys : List β}
    (hx : f x = pure y) (hxs : mapAll f xs = pure ys)
    : mapAll f (x :: xs) = pure (y :: ys) := by
  unfold mapAll at hxs ⊢
  simp only [pure, mk.injEq] at hxs ⊢
  rw [List.map_cons, List.flatMap_cons, hx, hxs.1, hxs.2]
  exact ⟨rfl, rfl⟩

end Noted

end Runbook
