import Runbook.Proofs.Agent.Field
import Runbook.Proofs.Guard.Number

/-!
This module contains whole numbers as the values of fields, among them the time limit of a step. A
number of 64 bits with a sign is kept. One that only fits in 64 bits without a sign is rounded to a
double, which is no time limit.
-/

namespace Runbook.Source

open Text Json

variable {n : Int}

theorem int64?_intText_eq_none (h : 2 ^ 63 ≤ n) : int64? (intText n) = none := by
  obtain ⟨c, cs, hdigits, hc⟩ := toDigits_eq_cons n.natAbs
  have htext : intText n = c :: cs := by
    unfold intText
    rw [if_neg (by omega), List.nil_append, hdigits]
  have hread : digits? (c :: cs) = some n.natAbs := by
    rw [← hdigits]
    exact digits?_toDigits n.natAbs
  have hbound : ¬ n.natAbs < 1 <<< 63 := by omega
  rw [htext]
  -- the first character is a digit and no sign
  unfold int64?
  split
  next heq =>
    cases heq
    cases hc
  next =>
    unfold natBelow?
    split
    next heq =>
      cases heq
      cases hc
    next => rw [hread, Option.filter_some, if_neg (by simpa using hbound)]; rfl

theorem looksNumeric_intText (n : Int) : looksNumeric (intText n) := by
  obtain ⟨c, cs, hdigits, hc⟩ := toDigits_eq_cons n.natAbs
  have hall : ∀ d ∈ Nat.toDigits 10 n.natAbs, d.isDigit := Decimal.isDigit_of_mem_toDigits n.natAbs
  unfold looksNumeric intText
  rw [Bool.and_eq_true, List.all_eq_true, List.any_eq_true]
  constructor
  . intro d hd
    rw [List.mem_append] at hd
    cases hd with
    | inl hsign =>
      have : d = '-' := by
        split at hsign
        . exact List.mem_singleton.mp hsign
        . contradiction
      rw [this]
      rfl
    | inr hdigit => rw [hall d hdigit, Bool.true_or]
  . exact ⟨c, List.mem_append_right _ (hdigits ▸ List.mem_cons_self), hc⟩

theorem plainValue_intText_of_large (hlow : 2 ^ 63 ≤ n) (hhigh : n < 2 ^ 64)
    : ∃ x, plainValue (String.ofList (intText n)) = .float x ∧ x.toRat = Binary64.roundWhole n := by
  have hbound : n.natAbs < 2 ^ 64 := by omega
  obtain ⟨x, hread, hvalue⟩ := Binary64.read?_intText hbound
  refine ⟨x, ?_, hvalue⟩
  rw [plainValue_intText_eq, int64?_intText_eq_none hlow, looksNumeric_intText, hread]
  rfl

end Runbook.Source

namespace Runbook.Agent

open Source

variable {fields : List Entry} {label : Label} {node : Node} (id : String)

theorem readTimeout_eq_pure (h : field? fields "timeout_ms" = some (label, node)) {k : Nat}
    (hvalue : node.toJson.asNat? = some k) (hpos : 0 < k)
    : readTimeout id fields = pure (some k) := by
  unfold readTimeout
  rw [h]
  dsimp only
  rw [hvalue, Option.filter_some, if_pos (decide_eq_true hpos)]

/-- The report on a time limit that is no positive number. -/
def notPositive (id : String) (label : Label) : Diagnostic :=
  errorAt label s!"Step '{id}': \x60timeout_ms\x60 must be a positive integer"
    "Write the timeout in milliseconds, e.g. \x60timeout_ms: 5000\x60"

theorem readTimeout_eq_error (h : field? fields "timeout_ms" = some (label, node))
    (hvalue : node.toJson.asNat? = none)
    : readTimeout id fields = ⟨none, [notPositive id label]⟩ := by
  unfold readTimeout
  rw [h]
  dsimp only
  rw [hvalue]
  rfl

/--
A whole number of 64 bits is kept exactly if it fits with a sign, and so is a time limit. Any other
one is rounded to the nearest double, and reported where a time limit is expected.
-/
theorem whole_number_kept_iff {n : Int} (h : Guard.FitsWord n)
    : let text := String.ofList (Json.intText n)
      (plainValue text = .int n ↔ n < 2 ^ 63)
      ∧ (2 ^ 63 ≤ n → ∃ x, plainValue text = .float x ∧ x.toRat = Binary64.roundWhole n)
      ∧ ∀ id fields label,
          field? fields "timeout_ms" = some (label, .scalar (.atom (.plain text))) →
          0 < n →
            (n < 2 ^ 63 → readTimeout id fields = pure (some n.toNat))
            ∧ (2 ^ 63 ≤ n → readTimeout id fields = ⟨none, [notPositive id label]⟩) := by
  obtain ⟨hlow, hhigh⟩ := h
  intro text
  have hkept (hsmall : n < 2 ^ 63) : plainValue text = .int n := plainValue_intText hlow hsmall
  have hrounded (hlarge : 2 ^ 63 ≤ n)
      : ∃ x, plainValue text = .float x ∧ x.toRat = Binary64.roundWhole n :=
    plainValue_intText_of_large hlarge hhigh
  refine ⟨⟨fun heq => ?_, hkept⟩, hrounded, fun id fields label hfield hpos => ⟨?_, ?_⟩⟩
  . by_contra hlarge
    obtain ⟨x, hfloat, _⟩ := hrounded (not_lt.mp hlarge)
    rw [heq] at hfloat
    cases hfloat
  . intro hsmall
    apply readTimeout_eq_pure id hfield
    . change (plainValue text).asNat? = some n.toNat
      rw [hkept hsmall]
      exact if_pos ⟨hpos.le, by simp only [UInt64.size]; omega⟩
    . omega
  . intro hlarge
    obtain ⟨x, hfloat, _⟩ := hrounded hlarge
    apply readTimeout_eq_error id hfield
    change (plainValue text).asNat? = none
    rw [hfloat]
    rfl

/-- The largest number with a sign is a time limit. -/
theorem whole_number_kept_iff_of_largest
    : let n : Int := 9223372036854775807
      let label : Label := ⟨"timeout_ms", 6, 5, none⟩
      let value : Node := .scalar (.atom (.plain "9223372036854775807"))
      Guard.FitsWord n
      ∧ field? [(label, value)] "timeout_ms" = some (label, value)
      ∧ plainValue "9223372036854775807" = .int n
      ∧ readTimeout "ask" [(label, value)] = pure (some 9223372036854775807) := by
  intro n label value
  have hn : Guard.FitsWord n := by decide
  have htext : String.ofList (Json.intText n) = "9223372036854775807" := by decide +kernel
  have hfield : field? [(label, value)] "timeout_ms" = some (label, value) := rfl
  obtain ⟨hkept, -, hlimit⟩ := whole_number_kept_iff hn
  rw [htext] at hkept hlimit
  obtain ⟨hread, -⟩ := hlimit "ask" [(label, value)] label hfield (by decide)
  exact ⟨hn, hfield, hkept.mpr (by decide), hread (by decide)⟩

/-- The next number still fits without a sign, and is a positive number that is reported as none. -/
theorem positive_time_limit_refused
    : let n : Int := 9223372036854775808
      let label : Label := ⟨"timeout_ms", 6, 5, none⟩
      let value : Node := .scalar (.atom (.plain "9223372036854775808"))
      Guard.FitsWord n
      ∧ String.ofList (Json.intText n) = "9223372036854775808"
      ∧ plainValue "9223372036854775808" ≠ .int n
      ∧ readTimeout "ask" [(label, value)] = ⟨none, [notPositive "ask" label]⟩ := by
  intro n label value
  have htext : String.ofList (Json.intText n) = "9223372036854775808" := by decide +kernel
  obtain ⟨x, hfloat, -⟩ := plainValue_intText_of_large (n := n) (by decide) (by decide)
  rw [htext] at hfloat
  refine ⟨by decide, htext, ?_, ?_⟩
  . rw [hfloat]
    exact Json.noConfusion
  . apply readTimeout_eq_error "ask" rfl
    change (plainValue "9223372036854775808").asNat? = none
    rw [hfloat]
    rfl

end Runbook.Agent
