import Runbook.Proofs.Run.Execution
import Runbook.Proofs.Trace

/-!
This module contains the account of a run: the steps that it takes, each with the event that the
trace is told of it. The trace of an execution is told of its beginning, of the account, and of its
end.
-/

namespace Runbook

namespace Happening

def isFailure : Happening → Bool
  | stepFailed .. => true
  | _ => false

def isEnd : Happening → Bool
  | finished .. => true
  | _ => false

theorem isFailure_timeless (what : Happening) : what.timeless.isFailure = what.isFailure := by
  cases what <;> rfl

theorem isEnd_timeless (what : Happening) : what.timeless.isEnd = what.isEnd := by
  cases what <;> rfl

end Happening

namespace Agent.Step

theorem happening_isFailure (step : Step) (b : Bindings)
    (result : Except ExecutionError StepOutcome)
    : (step.happening b result).isFailure = !result.toBool := by
  cases result with
  | error error => rfl
  | ok outcome => cases outcome <;> rfl

theorem happening_isEnd (step : Step) (b : Bindings) (result : Except ExecutionError StepOutcome)
    : (step.happening b result).isEnd = false := by
  cases result with
  | error error => rfl
  | ok outcome => cases outcome <;> rfl

end Agent.Step

theorem Trace.push_getLast? (trace : Trace) (event : Event)
    : (trace.push event).events.getLast? = some event := by
  unfold push
  split <;> simp

namespace Engine

/-- The steps that fail, up to the one that ends the run if there is one. -/
def failedSteps (engine : Engine) : List Agent.Step → RunState → List Agent.Step
  | [], _ => []
  | step :: rest, s =>
    match engine.advance [] step s with
    | (.ok (some _), s) => failedSteps engine rest s
    | (.ok none, s) => step :: failedSteps engine rest s
    | (.error _, _) => [step]

theorem failedSteps_alike {B : Bindings → Bindings → Prop} {T : Trace → Trace → Prop}
    {c₁ c₂ : List Call} (even : Call.EquallyMany c₁ c₂) (hT : Trace.Timeless B T)
    (engine : Engine) {steps : List Agent.Step} (hB : ∀ step ∈ steps, Bindings.Keeps B step)
    {s₁ s₂ : RunState} (h : RunState.Alike B T c₁ c₂ s₁ s₂)
    : engine.failedSteps steps s₁ = engine.failedSteps steps s₂ := by
  induction steps generalizing s₁ s₂ with
  | nil => rfl
  | cons step rest ih =>
    rw [List.forall_mem_cons] at hB
    obtain ⟨hresult, hstate⟩ := advance_alike even hB.1 hT engine [] [] h
    unfold failedSteps
    generalize engine.advance [] step s₁ = advanced₁ at hresult hstate
    generalize engine.advance [] step s₂ = advanced₂ at hresult hstate
    obtain ⟨result₁, s₁'⟩ := advanced₁
    obtain ⟨result₂, s₂'⟩ := advanced₂
    dsimp only at hresult hstate
    cases hresult with
    | error _ => rfl
    | ok outcome =>
      cases outcome with
      | none => exact congrArg (step :: ·) (ih hB.2 hstate)
      | some outcome => exact ih hB.2 hstate

theorem runSteps_failed {engine : Engine} {steps : List Agent.Step} {p p' : Progress}
    {s s' : RunState} (h : engine.runSteps steps p s = (none, p', s'))
    : p'.failed = (p.failed || !(engine.failedSteps steps s).isEmpty) := by
  induction steps generalizing p s with
  | nil =>
    simp only [runSteps, Prod.mk.injEq] at h
    simp [failedSteps, h.2.1]
  | cons step rest ih =>
    unfold runSteps at h
    unfold failedSteps
    split at h
    . next outcome s₁ hadvance =>
      rw [hadvance, ih h]
      cases outcome with
      | none => simp [Progress.add]
      | some outcome => cases outcome <;> simp [Progress.add]
    . simp at h

/-- The steps that a run takes, each with the event that is then the newest one of the trace. -/
def account (engine : Engine) : List Agent.Step → RunState → List (Agent.Step × Event)
  | [], _ => []
  | step :: rest, s =>
    (engine.runStep step s).2.trace.events.getLast?.toList.map (step, ·) ++
      match engine.advance [] step s with
      | (.ok _, s) => account engine rest s
      | (.error _, _) => []

def hasOutcome : Except ExecutionError (Option StepOutcome) → Bool
  | .ok (some _) => true
  | _ => false

variable {engine : Engine} {step : Agent.Step} {s s' : RunState}
  {result : Except ExecutionError (Option StepOutcome)}

theorem hasOutcome_verdict (engine : Engine) (result : Except ExecutionError StepOutcome)
    : hasOutcome (engine.verdict result) = result.toBool := by
  unfold verdict
  split
  . rfl
  . split <;> rfl

theorem account_cons (h : engine.advance [] step s = (result, s')) (rest : List Agent.Step)
    : ∃ event,
        s'.trace = s.trace.push event ∧
        event.what.isEnd = false ∧
        event.what.isFailure = !hasOutcome result ∧
        engine.account (step :: rest) s
          =
        (step, event) :: if result.toBool then engine.account rest s' else [] := by
  obtain ⟨event, htrace, hevent⟩ := engine.runStep_trace step s
  refine ⟨event, ?_, ?_, ?_, ?_⟩
  . rw [← htrace, ← (engine.advance_snd [] step s).2.1, h]
  . rw [← Happening.isEnd_timeless, hevent, Agent.Step.happening_isEnd]
  . rw [← Happening.isFailure_timeless, hevent, Agent.Step.happening_isFailure]
    rw [← engine.hasOutcome_verdict, ← engine.advance_fst [], h]
  . rw [account, htrace, Trace.push_getLast?, h]
    cases result <;> rfl

/-- The trace of a run is told of exactly the account. -/
theorem runSteps_trace (engine : Engine) (steps : List Agent.Step) (p : Progress) (s : RunState)
    : (engine.runSteps steps p s).2.2.trace
        =
      s.trace.pushAll ((engine.account steps s).map Prod.snd) := by
  induction steps generalizing p s with
  | nil => rfl
  | cons step rest ih =>
    unfold runSteps
    split
    . next outcome s' hadvance =>
      obtain ⟨event, htrace, _, _, haccount⟩ := account_cons hadvance rest
      rw [ih, htrace, haccount]
      rfl
    . next error s' hadvance =>
      obtain ⟨event, htrace, _, _, haccount⟩ := account_cons hadvance rest
      rw [haccount]
      exact htrace

theorem account_steps {steps : List Agent.Step} {p p' : Progress}
    (h : engine.runSteps steps p s = (none, p', s'))
    : (engine.account steps s).map Prod.fst = steps := by
  induction steps generalizing p s with
  | nil => rfl
  | cons step rest ih =>
    unfold runSteps at h
    split at h
    . next outcome s₁ hadvance =>
      obtain ⟨event, _, _, _, haccount⟩ := account_cons hadvance rest
      rw [haccount, List.map_cons]
      exact congrArg (step :: ·) (ih h)
    . simp at h

theorem account_isEnd (engine : Engine) (steps : List Agent.Step) (s : RunState)
    : ∀ entry ∈ engine.account steps s, entry.2.what.isEnd = false := by
  induction steps generalizing s with
  | nil => exact List.forall_mem_nil _
  | cons step rest ih =>
    obtain ⟨event, _, hend, _, haccount⟩ :=
      account_cons (Prod.eta (engine.advance [] step s)).symm rest
    rw [haccount, List.forall_mem_cons]
    refine ⟨hend, ?_⟩
    split
    . exact ih _
    . exact List.forall_mem_nil _

theorem failedSteps_eq (engine : Engine) (steps : List Agent.Step) (s : RunState)
    : engine.failedSteps steps s
        =
      ((engine.account steps s).filter (·.2.what.isFailure)).map Prod.fst := by
  induction steps generalizing s with
  | nil => rfl
  | cons step rest ih =>
    unfold failedSteps
    split
    . next outcome s' hadvance =>
      obtain ⟨event, _, _, hfailure, haccount⟩ := account_cons hadvance rest
      rw [ih, haccount]
      simp [hfailure, hasOutcome, Except.toBool]
    . next s' hadvance =>
      obtain ⟨event, _, _, hfailure, haccount⟩ := account_cons hadvance rest
      rw [ih, haccount]
      simp [hfailure, hasOutcome, Except.toBool]
    . next error s' hadvance =>
      obtain ⟨event, _, _, hfailure, haccount⟩ := account_cons hadvance rest
      rw [haccount]
      simp [hfailure, hasOutcome, Except.toBool]

/-- The account of an execution; there is none if the bindings cannot be seeded. -/
def accountOf (engine : Engine) (agent : Agent) (input : Json) (j : Journal)
    : List (Agent.Step × Event) :=
  match (engine.seed agent input).1 with
  | .ok bindings =>
    engine.account agent.steps (engine.opened agent input (bindings.inOrder j.order) j)
  | .error _ => []

theorem accountOf_of_seed {agent : Agent} {input : Json} {bindings : Bindings}
    (h : (engine.seed agent input).1 = .ok bindings) (j : Journal)
    : engine.accountOf agent input j
        =
      engine.account agent.steps (engine.opened agent input (bindings.inOrder j.order) j) := by
  unfold accountOf
  rw [h]

end Engine

end Runbook
