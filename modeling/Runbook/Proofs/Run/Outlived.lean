import Runbook.Proofs.Run.Account

/-!
This module contains what is left of the failures that a run outlives: nothing. A run that goes on
after failures ends like a run of the other steps alone, which meets no failure and so does not have
to go on after any.
-/

namespace Runbook

/-- A capability whose answers are settled by the request, however often it was called before. -/
def Capability.Stateless (capability : Capability) : Prop :=
  ∀ m n request, capability m request = capability n request

theorem Backend.answersAlike_of_stateless {backend : Backend}
    (h : backend.capability.Stateless) (request : Request)
    : backend.AnswersAlike (fun _ _ => True) request request :=
  fun _ _ _ => ⟨h _ _ request, trivial⟩

namespace Engine

open Agent

/-- An engine with another failure policy. -/
def withPolicy (engine : Engine) (policy : FailurePolicy) : Engine :=
  { engine with settings := { engine.settings with failurePolicy := policy } }

theorem bindVariables_withPolicy (engine : Engine) (policy : FailurePolicy) (input : Json.Fields)
    (vars : List Variable) (b : Bindings)
    : (engine.withPolicy policy).bindVariables input vars b
        =
      engine.bindVariables input vars b := by
  induction vars generalizing b with
  | nil => rfl
  | cons decl rest ih =>
    simp only [bindVariables, ih]
    rfl

@[simp]
theorem seed_withPolicy (engine : Engine) (policy : FailurePolicy) (agent : Agent) (input : Json)
    : (engine.withPolicy policy).seed agent input = engine.seed agent input := by
  unfold seed
  simp only [bindVariables_withPolicy]
  rfl

/-- The steps of a run that it was not told a failure of. -/
def unfailed (account : List (Step × Event)) : List Step :=
  (account.filter (!·.2.what.isFailure)).map Prod.fst

variable {engine : Engine} {step : Step} {s₁ s₂ : RunState} {order : SecretOrder}

/--
The policy has no part in a step, and neither have the time, the calls, the log, and the order of
the secrets, except in the text of an error.
-/
theorem runStep_stateless (h : engine.registry.All Capability.Stateless) (policy : FailurePolicy)
    (hbindings : s₂.bindings = s₁.bindings.inOrder order)
    : EndsAlike s₁.bindings s₂.bindings (engine.runStep step s₁).1
        ((engine.withPolicy policy).runStep step s₂).1 := by
  have hmeets : engine.MeetsAlike (fun _ _ => True) step s₁.bindings s₂.bindings := by
    rw [hbindings]
    refine ⟨fun _ _ => rfl, ?_⟩
    intro backend hresolve
    exact backend.answersAlike_of_stateless (h.of_resolve hresolve) _
  exact (runStep_related hmeets trivial).1

theorem advance_stateless_of_some (h : engine.registry.All Capability.Stateless)
    (policy : FailurePolicy) (hbindings : s₂.bindings = s₁.bindings.inOrder order)
    {outcome : StepOutcome} {s : RunState}
    (hadvance : engine.advance [] step s₁ = (.ok (some outcome), s))
    : ∃ s',
        (engine.withPolicy policy).advance [] step s₂ = (.ok (some outcome), s') ∧
        s'.bindings = s.bindings.inOrder order := by
  have hverdict := engine.advance_fst [] step s₁
  have hbound := (engine.advance_snd [] step s₁).1
  rw [hadvance] at hverdict hbound
  have hresult := verdict_eq_some_iff.mp hverdict.symm
  have hresult' := (hresult ▸ runStep_stateless h policy hbindings).eq_ok
  refine ⟨((engine.withPolicy policy).advance [] step s₂).2, Prod.ext ?_ rfl, ?_⟩
  . rw [advance_fst]
    exact verdict_eq_some_iff.mpr hresult'
  . rw [hbound, (advance_snd ..).1, runStep_bindings, runStep_bindings, hresult, hresult',
      hbindings, step.bindResult_inOrder]

theorem runSteps_unfailed (h : engine.registry.All Capability.Stateless) {steps : List Step}
    {p₁ p : Progress} {s : RunState} (hrun : engine.runSteps steps p₁ s₁ = (none, p, s))
    (p₂ : Progress) (s₂ : RunState) (hsaved : p₁.lastSaved = p₂.lastSaved)
    (hbindings : s₂.bindings = s₁.bindings.inOrder order)
    : ∃ p' s',
        (engine.withPolicy .abort).runSteps (unfailed (engine.account steps s₁)) p₂ s₂
          =
        (none, p', s') ∧
        p.lastSaved = p'.lastSaved ∧
        s'.bindings = s.bindings.inOrder order := by
  -- bindings and the value saved last are all that the outputs depend on; a failure changes neither
  induction steps generalizing p₁ p₂ s₁ s₂ with
  | nil =>
    cases hrun
    exact ⟨p₂, s₂, rfl, hsaved, hbindings⟩
  | cons step rest ih =>
    unfold runSteps at hrun
    split at hrun
    . next outcome s₁' hadvance =>
      obtain ⟨event, _, _, hfailure, haccount⟩ := account_cons hadvance rest
      unfold unfailed
      rw [haccount, List.filter_cons, hfailure]
      cases outcome with
      | none =>
        have hbindings' := hbindings
        rw [← advance_bindings_of_no_outcome hadvance (by simp)] at hbindings'
        have hsaved' : (p₁.add step none).lastSaved = p₂.lastSaved := hsaved
        exact ih hrun p₂ s₂ hsaved' hbindings'
      | some outcome =>
        obtain ⟨s₂', hadvance', hbindings'⟩ :=
          advance_stateless_of_some h .abort hbindings hadvance
        have hsaved' := Progress.lastSaved_add_congr hsaved step (some outcome)
        obtain ⟨p', s', hrest, hends⟩ := ih hrun _ s₂' hsaved' hbindings'
        refine ⟨p', s', ?_, hends⟩
        rw [← hrest]
        simp only [hasOutcome, Except.toBool, Bool.not_true, Bool.not_false, if_true,
          List.map_cons, runSteps, hadvance']
        rfl
    . cases hrun

variable {agent : Agent} {input value : Json}

/-- A run that outlives failures has the result and the bindings of the steps that did not fail. -/
theorem execute_unfailed (hregistry : engine.registry.All Capability.Stateless) (j₁ j₂ : Journal)
    (h : ((engine.withPolicy .continue).execute agent input j₁).result = .ok value)
    : let account := (engine.withPolicy .continue).accountOf agent input j₁
      let again := (engine.withPolicy .abort).execute { agent with steps := unfailed account }
        input j₂
      account.map Prod.fst = agent.steps ∧
      again.result = .ok value ∧
      again.state.bindings
        =
      ((engine.withPolicy .continue).execute agent input j₁).state.bindings.inOrder j₂.order := by
  obtain ⟨bindings, p, s, hseed, hrun, rfl, hbindings⟩ := runSteps_of_execute_ok h
  dsimp only
  rw [accountOf_of_seed hseed, hbindings]
  refine ⟨account_steps hrun, ?_⟩
  generalize hkept : unfailed ((engine.withPolicy .continue).account agent.steps
    ((engine.withPolicy .continue).opened agent input (bindings.inOrder j₁.order) j₁)) = kept
  have hseed' : ((engine.withPolicy .abort).seed { agent with steps := kept } input).1
      = .ok bindings := by
    rw [seed_withPolicy] at hseed ⊢
    exact hseed
  have hagain := execute_isRunFrom hseed' j₂
  have hregistry' : (engine.withPolicy .continue).registry.All Capability.Stateless := hregistry
  obtain ⟨p', s', hrest, hsaved, hends⟩ := runSteps_unfailed hregistry' hrun {}
    ((engine.withPolicy .abort).opened { agent with steps := kept } input
      (bindings.inOrder j₂.order) j₂) rfl rfl
  rw [hkept] at hrest
  have hresult := hagain.of_none hrest
  rw [hresult.result, hresult.bindings, hends, hsaved]
  exact ⟨rfl, rfl⟩

def offline : Engine where
  registry := (({} : Registry).register "http" none fun _ _ => { result := .error (.root "down") })
    |>.register "echo" none Capability.echo
  secrets := fun _ => none

theorem offline_stateless : offline.registry.All Capability.Stateless :=
  (Registry.all_empty.register (fun _ _ _ => rfl) "http" none).register (fun _ _ _ => rfl)
    "echo" none

def chatty : Agent where
  id := "chatty"
  version := "1.0"
  steps := [{ id := "fetch", kind := "http", save := some "page" },
    { id := "say", kind := "echo", config := [("text", .str "hi")], save := some "said" }]

theorem execute_unfailed_of_offline
    : let account := (offline.withPolicy .continue).accountOf chatty .null {}
      let again := (offline.withPolicy .abort).execute { chatty with steps := unfailed account }
        .null {}
      account.map (·.1.id) = ["fetch", "say"] ∧
      (unfailed account).map (·.id) = ["say"] ∧
      ((offline.withPolicy .continue).execute chatty .null {}).result
        = .ok (.obj [("text", .str "hi")]) ∧
      again.result = .ok (.obj [("text", .str "hi")]) ∧
      again.state.bindings.values.keys = ["said"] := by
  have h : ((offline.withPolicy .continue).execute chatty .null {}).result
      = .ok (.obj [("text", .str "hi")]) := rfl
  obtain ⟨_, hresult, hbindings⟩ := execute_unfailed offline_stateless {} {} h
  refine ⟨rfl, rfl, h, hresult, ?_⟩
  rw [hbindings]
  rfl

end Engine

end Runbook
