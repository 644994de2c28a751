import Mathlib.Algebra.Ring.Nat
import Runbook.Retry

/-!
This module contains what retried work does. It makes one attempt after another, with the pauses in
between, until an attempt succeeds or none is left, and the last attempt decides how it ends. An
exponential pause follows its formula up to the limit, however large the number of the retry is.
-/

namespace Runbook

namespace Backoff

theorem factor_of_le {retry : Nat} (h : retry ≤ 32) : factor retry = 2 ^ (retry - 1) := by
  unfold factor
  rw [if_pos (by omega), Nat.one_shiftLeft]

theorem factor_of_lt {retry : Nat} (h : 32 < retry) : factor retry = 2 ^ 32 - 1 := by
  have hlarge : ¬ retry - 1 < 32 := by omega
  calc
    factor retry = UInt32.size - 1 := if_neg hlarge
    _ = 2 ^ 32 - 1 := by decide

theorem factor_mono {retry later : Nat} (h : retry ≤ later) : factor retry ≤ factor later := by
  by_cases hlater : later ≤ 32
  . rw [factor_of_le hlater, factor_of_le (Nat.le_trans h hlater)]
    exact Nat.pow_le_pow_right (by decide) (Nat.sub_le_sub_right h 1)
  . rw [factor_of_lt (Nat.lt_of_not_le hlater)]
    by_cases hretry : retry ≤ 32
    . rw [factor_of_le hretry]
      have hpow : 2 ^ (retry - 1) ≤ 2 ^ 31 := Nat.pow_le_pow_right (by decide) (by omega)
      exact Nat.le_trans hpow (by decide)
    . exact Nat.le_of_eq (factor_of_lt (Nat.lt_of_not_le hretry))

variable {initial limit : Nat}

theorem delay_exponential_eq (hlimit : limit < 2 ^ 64) (retry : Nat)
    : (exponential initial limit).delay retry = min (initial * factor retry) limit := by
  have hlongest : limit ≤ longest := Nat.le_trans (Nat.le_of_lt hlimit) (by decide)
  have hdelay : (exponential initial limit).delay retry
      = min (min (initial * factor retry) longest) limit := rfl
  rw [hdelay, Nat.min_assoc, Nat.min_eq_right hlongest]

theorem min_mul_eq {m n : Nat} (h : limit ≤ initial * m) (hmn : m ≤ n)
    : min (initial * n) limit = limit :=
  Nat.min_eq_right (Nat.le_trans h (Nat.mul_le_mul_left initial hmn))

theorem delay_formula_of_le (hlimit : limit < 2 ^ 64) (h : limit ≤ initial * (2 ^ 32 - 1))
    (retry : Nat)
    : (exponential initial limit).delay retry = min (initial * 2 ^ (retry - 1)) limit := by
  rw [delay_exponential_eq hlimit]
  by_cases hretry : retry ≤ 32
  . rw [factor_of_le hretry]
  . have hpow : 2 ^ 32 ≤ 2 ^ (retry - 1) := Nat.pow_le_pow_right (by decide) (by omega)
    have hlast : 2 ^ 32 - 1 ≤ 2 ^ (retry - 1) := Nat.le_trans (Nat.sub_le _ 1) hpow
    rw [factor_of_lt (Nat.lt_of_not_le hretry), min_mul_eq h hlast]
    exact Nat.min_eq_right h

theorem le_of_delay_formula (hlimit : limit < 2 ^ 64)
    (h : (exponential initial limit).delay 33 = min (initial * 2 ^ 32) limit)
    : initial = 0 ∨ limit ≤ initial * (2 ^ 32 - 1) := by
  rw [delay_exponential_eq hlimit, factor_of_lt (by decide)] at h
  omega

/--
Exponential pauses grow with the retries up to the limit. They follow the formula at every retry
exactly if the limit is reached by the largest factor, or if there is nothing to double.
-/
theorem delay_exponential (initial : Nat) (hlimit : limit < 2 ^ 64)
    : let delay := (exponential initial limit).delay
      (∀ retry later, retry ≤ later → delay retry ≤ delay later) ∧
      (∀ retry, delay retry ≤ limit) ∧
      ((∀ retry, 1 ≤ retry → delay retry = min (initial * 2 ^ (retry - 1)) limit)
        ↔
      initial = 0 ∨ limit ≤ initial * (2 ^ 32 - 1)) := by
  dsimp only
  refine ⟨?_, ?_, ?_, ?_⟩
  . intro retry later h
    rw [delay_exponential_eq hlimit, delay_exponential_eq hlimit]
    have hmul := Nat.mul_le_mul_left initial (factor_mono h)
    omega
  . intro retry
    rw [delay_exponential_eq hlimit]
    exact Nat.min_le_right _ _
  . intro h
    exact le_of_delay_formula hlimit (h 33 (by decide))
  . rintro (rfl | h) retry _
    . rw [delay_exponential_eq hlimit, Nat.zero_mul, Nat.zero_mul]
    . exact delay_formula_of_le hlimit h retry

/-- The first pause times the factor is no span of time any more. -/
theorem delay_exponential_of_largest
    : 2 ^ 64 - 1 < 2 ^ 64 ∧
      longest < (2 ^ 64 - 1) * factor 40 ∧
      (exponential (2 ^ 64 - 1) (2 ^ 64 - 1)).delay 40
        =
      min ((2 ^ 64 - 1) * 2 ^ (40 - 1)) (2 ^ 64 - 1) := by
  have hlimit : 2 ^ 64 - 1 < 2 ^ 64 := by decide
  obtain ⟨_, _, hformula⟩ := delay_exponential (2 ^ 64 - 1) hlimit
  exact ⟨hlimit, by decide, hformula.mpr (.inr (by decide)) 40 (by decide)⟩

end Backoff

namespace RetryPolicy

variable {α : Type} (policy : RetryPolicy)

theorem maxAttempts_pos : 0 < policy.maxAttempts := by
  unfold maxAttempts
  exact Nat.lt_min.mpr ⟨Nat.succ_pos _, by decide⟩

@[simp]
theorem pause_calls (number : Nat) (j : Journal) : (policy.pause number j).calls = j.calls := by
  unfold pause
  dsimp only
  split <;> rfl

@[simp]
theorem settle_calls (number : Nat) (attempt : Attempt α) (j : Journal)
    : (policy.settle number attempt j).2.calls = j.calls := by
  unfold settle
  split
  . dsimp only
    split <;> rfl
  . rfl

def tryOnce (attempt : Nat → Journal → Attempt α × Journal) (number : Nat) (j : Journal)
    : Except AttemptError α × Journal :=
  let (made, j) := attempt number (policy.pause number j)
  policy.settle number made j

/-- How an attempt ends: with its value, with its cause, or given up at the time limit. -/
inductive Ends (attempt : Attempt α) : Except AttemptError α → Prop where
  | value {value : α} (hdelay : attempt.delay ≤ policy.timeout)
      (hresult : attempt.result = .ok value) : Ends attempt (.ok value)
  | failed {cause : Cause} (hdelay : attempt.delay ≤ policy.timeout)
      (hresult : attempt.result = .error cause) : Ends attempt (.error (.failed cause))
  | timedOut (hdelay : policy.timeout < attempt.delay)
      : Ends attempt (.error (.timedOut policy.timeout))

theorem settle_ends (number : Nat) (attempt : Attempt α) (j : Journal)
    : policy.Ends attempt (policy.settle number attempt j).1 := by
  unfold settle
  split
  . next hdelay =>
    dsimp only
    split
    . next value hresult => exact .value hdelay hresult
    . next cause hresult => exact .failed hdelay hresult
  . next hdelay => exact .timedOut (Nat.lt_of_not_le hdelay)

def spent (attempt : Attempt α) : Nat :=
  min attempt.delay policy.timeout

theorem settle_clock (number : Nat) (attempt : Attempt α) (j : Journal)
    : (policy.settle number attempt j).2.clock = j.clock + policy.spent attempt := by
  unfold settle spent
  split
  . next hdelay =>
    rw [Nat.min_eq_left hdelay]
    dsimp only
    split <;> rfl
  . next hdelay =>
    rw [Nat.min_eq_right (Nat.le_of_not_le hdelay)]
    rfl

theorem pause_first (j : Journal) : policy.pause 1 j = j := by
  unfold pause
  rw [if_pos (.inl (Nat.le_refl 1))]

theorem pause_clock {number : Nat} (h : 1 < number) (j : Journal)
    : (policy.pause number j).clock = j.clock + policy.backoff.delay (number - 1) := by
  unfold pause
  dsimp only
  split
  . next hnone =>
    have hdelay : policy.backoff.delay (number - 1) = 0 := by omega
    rw [hdelay]
    rfl
  . rfl

section Last

variable {attempt : Nat → Journal → Attempt α × Journal} {I : Nat → Journal → Prop}

theorem run.go_succ (left number : Nat) (last : AttemptError) (j : Journal)
    : run.go policy attempt (left + 1) number last j
        =
      match policy.tryOnce attempt number j with
      | (.ok value, j) => (⟨.ok value, number⟩, j)
      | (.error error, j) => run.go policy attempt left (number + 1) error j := rfl

def IsLast (number : Nat) (result : Except AttemptError α) : Prop :=
  number ≤ policy.maxAttempts ∧ ((∃ value, result = .ok value) ∨ number = policy.maxAttempts)

theorem run.go_last
    (hfailed : ∀ n j error, I n j → (policy.tryOnce attempt (n + 1) j).1 = .error error →
      I (n + 1) (policy.tryOnce attempt (n + 1) j).2)
    (left n : Nat) (last : AttemptError) (j : Journal) (h : I n j) (hpos : 0 < left)
    (hleft : n + left = policy.maxAttempts)
    : ∃ m k,
        I m k ∧
        run.go policy attempt left (n + 1) last j
          =
        (⟨(policy.tryOnce attempt (m + 1) k).1, m + 1⟩, (policy.tryOnce attempt (m + 1) k).2) ∧
        policy.IsLast (m + 1) (policy.tryOnce attempt (m + 1) k).1 := by
  induction left generalizing n last j with
  | zero => exact absurd hpos (Nat.lt_irrefl 0)
  | succ left ih =>
    rw [run.go_succ]
    split
    . next value k htry =>
      refine ⟨n, j, h, ?_, ?_⟩
      . rw [htry]
      . rw [htry]
        exact ⟨by omega, .inl ⟨value, rfl⟩⟩
    . next error k htry =>
      cases left with
      | zero =>
        refine ⟨n, j, h, ?_, ?_⟩
        . rw [htry, run.go, ← hleft]
        . exact ⟨Nat.le_of_eq hleft, .inr hleft⟩
      | succ left =>
        have hnext := hfailed n j error h (by rw [htry])
        rw [htry] at hnext
        exact ih (n + 1) error k hnext (Nat.succ_pos left) (by omega)

variable (attempt) in
/--
Retried work ends as its last attempt does. Before it, only failed attempts were made, so that what
these keep true with their number is still true.
-/
theorem run_last
    (hfailed : ∀ n j error, I n j → (policy.tryOnce attempt (n + 1) j).1 = .error error →
      I (n + 1) (policy.tryOnce attempt (n + 1) j).2)
    {j : Journal} (h : I 0 j)
    : ∃ n k,
        I n k ∧
        policy.run attempt j
          =
        (⟨(policy.tryOnce attempt (n + 1) k).1, n + 1⟩, (policy.tryOnce attempt (n + 1) k).2) ∧
        policy.IsLast (n + 1) (policy.tryOnce attempt (n + 1) k).1 := by
  unfold run
  apply run.go_last
  . exact hfailed
  . exact h
  . exact policy.maxAttempts_pos
  . exact Nat.zero_add _

/-- What pauses and attempts keep true of the journal stays true to the end. -/
theorem run_invariant {I : Journal → Prop}
    (hpause : ∀ number j, I j → I (policy.pause number j))
    (hsettle : ∀ number j, I j →
      I (policy.settle number (attempt number j).1 (attempt number j).2).2)
    {j : Journal} (h : I j)
    : I (policy.run attempt j).2 := by
  have htry : ∀ number k, I k → I (policy.tryOnce attempt number k).2 :=
    fun number k hk => hsettle number _ (hpause number k hk)
  obtain ⟨n, k, hk, hrun, _⟩ := policy.run_last attempt (I := fun _ => I)
    (fun n k _ hk _ => htry (n + 1) k hk) h
  rw [hrun]
  exact htry (n + 1) k hk

theorem run_calls {call : Call}
    (hattempt : ∀ number j, (attempt number j).2.calls = j.calls ++ [call]) (j : Journal)
    : 0 < (policy.run attempt j).1.attempts ∧
      (policy.run attempt j).2.calls
        =
      j.calls ++ List.replicate (policy.run attempt j).1.attempts call := by
  have htry : ∀ n k, k.calls = j.calls ++ List.replicate n call →
      (policy.tryOnce attempt (n + 1) k).2.calls = j.calls ++ List.replicate (n + 1) call := by
    intro n k hk
    unfold tryOnce
    rw [settle_calls, hattempt, pause_calls, hk, List.append_assoc, List.replicate_succ']
  obtain ⟨n, k, hk, hrun, _⟩ := policy.run_last attempt
    (I := fun n k => k.calls = j.calls ++ List.replicate n call) (fun n k _ hk _ => htry n k hk)
    (List.append_nil _).symm
  rw [hrun]
  exact ⟨Nat.succ_pos n, htry n k hk⟩

end Last

section Scripted

variable (outcomes : Nat → Attempt α) (call : Nat → Nat → Call)

/-- Attempts with given outcomes. Each is noted as a call of its number at its time. -/
def scripted (number : Nat) (j : Journal) : Attempt α × Journal :=
  (outcomes number, { j with calls := j.calls ++ [call number j.clock] })

/-- The time that attempts take, from the first one on. -/
def timeSpent (n : Nat) : Nat :=
  ((List.range' 1 n).map fun i => policy.spent (outcomes i)).sum

/-- The time of the pauses before retries, from the first one on. -/
def timePaused (n : Nat) : Nat :=
  ((List.range' 1 n).map policy.backoff.delay).sum

/-- When an attempt begins that follows others, one pause before each retry up to it. -/
def beginning (clock number : Nat) : Nat :=
  clock + policy.timeSpent outcomes (number - 1) + policy.timePaused (number - 1)

theorem timeSpent_succ (n : Nat)
    : policy.timeSpent outcomes (n + 1)
        =
      policy.timeSpent outcomes n + policy.spent (outcomes (n + 1)) := by
  unfold timeSpent
  rw [List.range'_1_concat, List.map_append, List.sum_append, Nat.add_comm 1 n]
  simp

theorem timePaused_succ (n : Nat)
    : policy.timePaused (n + 1) = policy.timePaused n + policy.backoff.delay (n + 1) := by
  unfold timePaused
  rw [List.range'_1_concat, List.map_append, List.sum_append, Nat.add_comm 1 n]
  simp

/-- The calls of the first attempts. -/
def callsMade (clock n : Nat) : List Call :=
  (List.range' 1 n).map fun i => call i (policy.beginning outcomes clock i)

theorem callsMade_succ (clock n : Nat)
    : policy.callsMade outcomes call clock (n + 1)
        =
      policy.callsMade outcomes call clock n
        ++ [call (n + 1) (policy.beginning outcomes clock (n + 1))] := by
  unfold callsMade
  rw [List.range'_1_concat, List.map_append, Nat.add_comm 1 n]
  rfl

/-- A journal behind a number of attempts, all of which have failed. -/
structure AllFailed (start : Journal) (n : Nat) (j : Journal) : Prop where
  failed : ∀ i, 1 ≤ i → i ≤ n → ∃ error, policy.Ends (outcomes i) (.error error)
  calls : j.calls = start.calls ++ policy.callsMade outcomes call start.clock n
  clock : j.clock = start.clock + policy.timeSpent outcomes n + policy.timePaused (n - 1)

variable {policy outcomes call} {start j : Journal} {n : Nat}

theorem AllFailed.pause_clock (h : policy.AllFailed outcomes call start n j)
    : (policy.pause (n + 1) j).clock = policy.beginning outcomes start.clock (n + 1) := by
  unfold beginning
  cases n with
  | zero =>
    rw [pause_first, h.clock]
  | succ n =>
    rw [RetryPolicy.pause_clock _ (by omega), h.clock, Nat.add_sub_cancel, Nat.add_sub_cancel]
    rw [timePaused_succ, Nat.add_assoc]

theorem AllFailed.tryOnce (h : policy.AllFailed outcomes call start n j)
    : let tried := policy.tryOnce (scripted outcomes call) (n + 1) j
      policy.Ends (outcomes (n + 1)) tried.1 ∧
      tried.2.calls = start.calls ++ policy.callsMade outcomes call start.clock (n + 1) ∧
      tried.2.clock = start.clock + policy.timeSpent outcomes (n + 1) + policy.timePaused n := by
  have hbegin := h.pause_clock
  unfold RetryPolicy.tryOnce scripted
  dsimp only
  refine ⟨policy.settle_ends _ _ _, ?_, ?_⟩
  . rw [settle_calls, pause_calls, h.calls, hbegin, callsMade_succ, List.append_assoc]
  . rw [settle_clock, hbegin, timeSpent_succ]
    unfold beginning
    rw [Nat.add_sub_cancel]
    omega

variable (policy outcomes call)

/--
Work is tried with the numbers from one on, up to the first attempt that succeeds in time or up to
the last one that there may be. It ends as this attempt does. An attempt takes time up to the limit,
and there is one pause before each retry.
-/
theorem run_scripted (j : Journal)
    : let outcome := (policy.run (scripted outcomes call) j).1
      let after := (policy.run (scripted outcomes call) j).2
      let n := outcome.attempts
      1 ≤ n ∧
      n ≤ min (policy.retries + 1) (2 ^ 32 - 1) ∧
      (∀ i, 1 ≤ i → i < n → ∃ error, policy.Ends (outcomes i) (.error error)) ∧
      policy.Ends (outcomes n) outcome.result ∧
      ((∃ value, outcome.result = .ok value) ∨ n = min (policy.retries + 1) (2 ^ 32 - 1)) ∧
      after.calls = j.calls ++ policy.callsMade outcomes call j.clock n ∧
      after.clock = j.clock + policy.timeSpent outcomes n + policy.timePaused (n - 1) := by
  have hstart : policy.AllFailed outcomes call j 0 j := by
    constructor
    . intro i hfirst hlast
      omega
    . exact (List.append_nil _).symm
    . rfl
  have hstep : ∀ n k error, policy.AllFailed outcomes call j n k →
      (policy.tryOnce (scripted outcomes call) (n + 1) k).1 = .error error →
      policy.AllFailed outcomes call j (n + 1)
        (policy.tryOnce (scripted outcomes call) (n + 1) k).2 := by
    intro n k error hn herror
    obtain ⟨hends, hcalls, hclock⟩ := hn.tryOnce
    refine ⟨?_, hcalls, hclock⟩
    intro i hfirst hlast
    obtain hi | rfl := Nat.lt_or_eq_of_le hlast
    . exact hn.failed i hfirst (Nat.le_of_lt_succ hi)
    . rw [herror] at hends
      exact ⟨error, hends⟩
  obtain ⟨n, k, hn, hrun, hle, hlast⟩ := policy.run_last (scripted outcomes call) hstep hstart
  obtain ⟨hends, hcalls, hclock⟩ := hn.tryOnce
  rw [hrun]
  refine ⟨Nat.le_add_left 1 n, hle, ?_, hends, hlast, hcalls, hclock⟩
  exact fun i hfirst hlast => hn.failed i hfirst (Nat.le_of_lt_succ hlast)

end Scripted

end RetryPolicy

end Runbook
