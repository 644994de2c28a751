import Runbook.Proofs.Json
import Runbook.Proofs.Run.Seed

/-!
This module contains what names are bound to when a run starts, however often they are declared and
wherever they occur. A secret comes before a variable of the same name, and a declared name before a
member of the input. Of several declarations of a name the last one with a value counts.
-/

namespace Runbook

def lastValue? {δ α : Type} (nameOf : δ → String) (value : δ → Option α) (decls : List δ)
    (name : String) : Option α :=
  ((decls.filter (nameOf · = name)).filterMap value).getLast?

section LastValue

variable {δ α : Type} {nameOf : δ → String} {value : δ → Option α}

theorem lastValue?_cons (decl : δ) (rest : List δ) (name : String)
    : lastValue? nameOf value (decl :: rest) name
        =
      (lastValue? nameOf value rest name).or
        (if nameOf decl = name then value decl else none) := by
  unfold lastValue?
  by_cases hname : nameOf decl = name
  . rw [List.filter_cons_of_pos (by simpa using hname), if_pos hname]
    cases hvalue : value decl with
    | none => rw [List.filterMap_cons_none hvalue, Option.or_none]
    | some v => rw [List.filterMap_cons_some hvalue, List.getLast?_cons, Option.or_some]
  . rw [List.filter_cons_of_neg (by simpa using hname), if_neg hname, Option.or_none]

theorem lastValue?_of_not_mem {decls : List δ} {name : String} (h : name ∉ decls.map nameOf)
    : lastValue? nameOf value decls name = none := by
  unfold lastValue?
  have hnone : decls.filter (nameOf · = name) = [] := by
    rw [List.filter_eq_nil_iff]
    intro decl hdecl hname
    exact h (List.mem_map.mpr ⟨decl, hdecl, of_decide_eq_true hname⟩)
  rw [hnone]
  rfl

end LastValue

namespace Agent

variable (agent : Agent)

def isTaken (b : Bindings) (name : String) : Bool :=
  b.isSecret name || (agent.findVariable name).isSome

theorem isTaken_iff {b : Bindings} {name : String}
    : agent.isTaken b name = true
        ↔
      name ∈ b.secretNames ∨ name ∈ agent.vars.map Variable.name := by
  unfold isTaken Bindings.isSecret findVariable
  simp

theorem bindInput_cons (key : String) (value : Json) (rest : Json.Fields) (b : Bindings)
    : agent.bindInput ((key, value) :: rest) b
        =
      agent.bindInput rest (if agent.isTaken b key then b else b.set key value) := rfl

theorem get?_bindInput {fields : Json.Fields} (hfields : fields.keys.Nodup) (b : Bindings)
    (name : String)
    : (agent.bindInput fields b).get? name
        =
      if agent.isTaken b name then b.get? name else (fields.get? name).or (b.get? name) := by
  induction fields generalizing b with
  | nil =>
    unfold bindInput
    split <;> rfl
  | cons field rest ih =>
    obtain ⟨key, value⟩ := field
    obtain ⟨hkey, hrest⟩ := List.nodup_cons.mp hfields
    rw [bindInput_cons]
    cases htaken : agent.isTaken b key with
    | true =>
      rw [if_pos rfl, ih hrest]
      split
      . rfl
      . next hname =>
        have hother : key ≠ name := by
          rintro rfl
          exact hname htaken
        rw [Json.Fields.get?, if_neg hother]
    | false =>
      have hsame : agent.isTaken (b.set key value) name = agent.isTaken b name := rfl
      rw [if_neg (by decide), ih hrest, hsame, Bindings.get?_set, Json.Fields.get?]
      by_cases hname : key = name
      . subst hname
        have hnone : Json.Fields.get? rest key = none := by
          rw [← Option.not_isSome_iff_eq_none, Json.Fields.get?_isSome_iff]
          exact hkey
        simp [htaken, hnone]
      . simp [hname]

end Agent

namespace Engine

open Agent

variable {engine : Engine}

section Secrets

variable {secrets : List SecretDecl}

theorem bindSecrets_of_unresolved {decl : SecretDecl}
    (h : secrets.find? (fun decl => (engine.secrets decl).isNone) = some decl) (b : Bindings)
    : secrets.foldlM engine.bindSecret b = .error (.missingSecret decl.name decl.source) := by
  induction secrets generalizing b with
  | nil => cases h
  | cons first rest ih =>
    rw [List.foldlM_cons]
    cases hfirst : engine.secrets first with
    | none =>
      rw [List.find?_cons_of_pos (by rw [hfirst]; rfl)] at h
      cases h
      unfold bindSecret
      rw [hfirst]
      rfl
    | some value =>
      rw [List.find?_cons_of_neg (by rw [hfirst]; simp)] at h
      unfold bindSecret
      rw [hfirst]
      exact ih h _

theorem bindSecrets_of_resolved
    (h : secrets.find? (fun decl => (engine.secrets decl).isNone) = none) (b : Bindings)
    : ∃ b',
        secrets.foldlM engine.bindSecret b = .ok b' ∧
        (∀ name, name ∈ b'.secretNames
          ↔
        name ∈ b.secretNames ∨ name ∈ secrets.map SecretDecl.name) ∧
        ∀ name, b'.get? name
          =
        ((lastValue? SecretDecl.name engine.secrets secrets name).map Json.str).or
          (b.get? name) := by
  induction secrets generalizing b with
  | nil => exact ⟨b, rfl, by simp, fun _ => rfl⟩
  | cons first rest ih =>
    rw [List.find?_cons] at h
    cases hfirst : engine.secrets first with
    | none =>
      rw [hfirst] at h
      cases h
    | some value =>
      rw [hfirst] at h
      obtain ⟨b', hfold, hnames, hvalues⟩ := ih h (b.setSecret first.name value)
      refine ⟨b', ?_, ?_, ?_⟩
      . rw [List.foldlM_cons, bindSecret, hfirst]
        exact hfold
      . intro name
        rw [hnames, Bindings.mem_secretNames_setSecret, List.map_cons, List.mem_cons, or_assoc]
      . intro name
        rw [hvalues, lastValue?_cons, Bindings.get?_setSecret, hfirst]
        by_cases hname : first.name = name <;> simp [hname]

end Secrets

section Variables

variable {input : Json.Fields} {vars : List Variable}

/-- Where the value of a variable is looked for. The first place that has one counts. -/
def placesOf (engine : Engine) (input : Json.Fields) (decl : Variable) : List (Option Json) :=
  let default := decl.default
  let given := input.get? decl.name
  let environment := (engine.env.get? decl.name).map Json.str
  match decl.source with
  | .literal => [default]
  | .env => [given, environment, default]
  | .input => [given, default]
  | .computed => [given, default]

def found? (engine : Engine) (input : Json.Fields) (decl : Variable) : Option Json :=
  (engine.placesOf input decl).findSome? id

theorem valueOf_eq_found? (engine : Engine) (input : Json.Fields) (decl : Variable)
    : engine.valueOf input decl = engine.found? input decl := by
  have hcons : ∀ (place : Option Json) (rest : List (Option Json)),
      (place :: rest).findSome? id = place.or (rest.findSome? id) := by
    intro place rest
    cases place <;> rfl
  unfold valueOf found? placesOf
  cases decl.source <;> simp only [hcons, List.findSome?_nil, Option.or_none]

/-- Whether a run cannot start for want of the value of a variable. -/
def isMissing (engine : Engine) (input : Json.Fields) (secrets : List String) (decl : Variable)
    : Bool :=
  decl.required && !secrets.contains decl.name && (engine.found? input decl).isNone

theorem isMissing_congr {s₁ s₂ : List String} (h : ∀ name, name ∈ s₁ ↔ name ∈ s₂)
    : engine.isMissing input s₁ = engine.isMissing input s₂ := by
  funext decl
  have hcontains : s₁.contains decl.name = s₂.contains decl.name := by
    rw [Bool.eq_iff_iff, List.contains_iff_mem, List.contains_iff_mem]
    exact h decl.name
  unfold isMissing
  rw [hcontains]

def bindVariable (engine : Engine) (input : Json.Fields) (b : Bindings) (decl : Variable)
    : Bindings :=
  match b.isSecret decl.name, engine.found? input decl with
  | false, some value => b.set decl.name value
  | _, _ => b

@[simp]
theorem bindVariable_secretNames (engine : Engine) (input : Json.Fields) (b : Bindings)
    (decl : Variable)
    : (engine.bindVariable input b decl).secretNames = b.secretNames := by
  unfold bindVariable
  split <;> rfl

theorem get?_bindVariable (engine : Engine) (input : Json.Fields) (b : Bindings) (decl : Variable)
    (name : String)
    : (engine.bindVariable input b decl).get? name
        =
      if b.isSecret name then
        b.get? name
      else
        (if decl.name = name then engine.found? input decl else none).or (b.get? name) := by
  unfold bindVariable
  split
  . next value hsecret hvalue =>
    rw [Bindings.get?_set]
    by_cases hname : decl.name = name
    . subst hname
      simp [hsecret, hvalue]
    . simp [hname]
  . next hnone =>
    by_cases hname : decl.name = name
    . subst hname
      cases hsecret : b.isSecret decl.name with
      | true => rfl
      | false =>
        cases hvalue : engine.found? input decl with
        | none => simp
        | some value => exact absurd hvalue (hnone value hsecret)
    . simp [hname]

theorem bindVariables_cons (engine : Engine) (input : Json.Fields) (decl : Variable)
    (rest : List Variable) (b : Bindings)
    : (engine.bindVariables input (decl :: rest) b).1
        =
      if engine.isMissing input b.secretNames decl then
        .error (.missingVariable decl.name)
      else
        (engine.bindVariables input rest (engine.bindVariable input b decl)).1 := by
  have hcontains : b.secretNames.contains decl.name = b.isSecret decl.name := rfl
  unfold isMissing bindVariable
  rw [bindVariables, valueOf_eq_found?, hcontains]
  cases b.isSecret decl.name with
  | true => simp
  | false =>
    cases engine.found? input decl with
    | some value => simp
    | none => cases decl.required <;> simp

theorem bindVariables_of_missing {decl : Variable} {b : Bindings}
    (h : vars.find? (engine.isMissing input b.secretNames) = some decl)
    : (engine.bindVariables input vars b).1 = .error (.missingVariable decl.name) := by
  induction vars generalizing b with
  | nil => cases h
  | cons first rest ih =>
    rw [bindVariables_cons]
    cases hmissing : engine.isMissing input b.secretNames first with
    | true =>
      rw [List.find?_cons_of_pos hmissing] at h
      cases h
      rfl
    | false =>
      rw [List.find?_cons_of_neg (by rw [hmissing]; decide)] at h
      apply ih
      rw [bindVariable_secretNames]
      exact h

theorem bindVariables_of_found {b : Bindings}
    (h : vars.find? (engine.isMissing input b.secretNames) = none)
    : ∃ b',
        (engine.bindVariables input vars b).1 = .ok b' ∧
        ∀ name, b'.get? name
          =
        if b.isSecret name then
          b.get? name
        else
          (lastValue? Variable.name (engine.found? input) vars name).or (b.get? name) := by
  induction vars generalizing b with
  | nil => exact ⟨b, rfl, fun name => by split <;> rfl⟩
  | cons first rest ih =>
    obtain ⟨hfirst, hrest⟩ := List.forall_mem_cons.mp (List.find?_eq_none.mp h)
    rw [bindVariables_cons, if_neg hfirst]
    rw [← bindVariable_secretNames engine input b first] at hrest
    obtain ⟨b', hbound, hvalues⟩ := ih (List.find?_eq_none.mpr hrest)
    refine ⟨b', hbound, ?_⟩
    intro name
    have hsecret : (engine.bindVariable input b first).isSecret name = b.isSecret name := by
      unfold Bindings.isSecret
      rw [bindVariable_secretNames]
    rw [hvalues, hsecret, get?_bindVariable, lastValue?_cons]
    split
    . rfl
    . rw [Option.or_assoc]

end Variables

/--
What a name is bound to at the start: as a secret, as a variable, or as a member of the input, each
only if it is none of those before.
-/
def startValue? (engine : Engine) (agent : Agent) (fields : Json.Fields) (name : String)
    : Option Json :=
  if name ∈ agent.secrets.map SecretDecl.name then
    (lastValue? SecretDecl.name engine.secrets agent.secrets name).map Json.str
  else if name ∈ agent.vars.map Variable.name then
    lastValue? Variable.name (engine.found? fields) agent.vars name
  else
    fields.get? name

theorem startValue?_eq {agent : Agent} {fields : Json.Fields} (hfields : fields.keys.Nodup)
    {secrets : Bindings} {name : String}
    (hname : name ∈ secrets.secretNames ↔ name ∈ agent.secrets.map SecretDecl.name)
    (hvalue : secrets.get? name
      = (lastValue? SecretDecl.name engine.secrets agent.secrets name).map Json.str)
    : (if (agent.bindInput fields secrets).isSecret name then
        (agent.bindInput fields secrets).get? name
      else
        (lastValue? Variable.name (engine.found? fields) agent.vars name).or
          ((agent.bindInput fields secrets).get? name))
        =
      engine.startValue? agent fields name := by
  have hsecret : (agent.bindInput fields secrets).isSecret name = true
      ↔ name ∈ agent.secrets.map SecretDecl.name := by
    unfold Bindings.isSecret
    rw [bindInput_secretNames, List.contains_iff_mem, hname]
  unfold startValue?
  rw [get?_bindInput agent hfields]
  by_cases hdeclared : name ∈ agent.secrets.map SecretDecl.name
  . have htaken := (agent.isTaken_iff).mpr (.inl (hname.mpr hdeclared))
    rw [if_pos (hsecret.mpr hdeclared), if_pos htaken, if_pos hdeclared, hvalue]
  . rw [lastValue?_of_not_mem hdeclared, Option.map_none] at hvalue
    rw [if_neg (mt hsecret.mp hdeclared), if_neg hdeclared, hvalue, Option.or_none]
    by_cases hvariable : name ∈ agent.vars.map Variable.name
    . have htaken := (agent.isTaken_iff (b := secrets)).mpr (.inr hvariable)
      rw [if_pos htaken, if_pos hvariable, Option.or_none]
    . have htaken : ¬ agent.isTaken secrets name = true := by
        rw [isTaken_iff, hname]
        exact not_or.mpr ⟨hdeclared, hvariable⟩
      rw [if_neg htaken, if_neg hvariable, lastValue?_of_not_mem hvariable, Option.none_or]

/--
A run starts unless there is a secret that cannot be resolved, or a variable that needs a value and
has none; the first such secret, or else the first such variable, is the error. The declared secrets
are its secrets, and every name is bound as it is declared.
-/
theorem seed_precedence (engine : Engine) (agent : Agent) {input : Json}
    (hinput : (inputFields input).keys.Nodup)
    : let result := (engine.seed agent input).1
      let fields := inputFields input
      let secretNames := agent.secrets.map SecretDecl.name
      match agent.secrets.find? fun decl => (engine.secrets decl).isNone,
        agent.vars.find? (engine.isMissing fields secretNames) with
      | some decl, _ => result = .error (.missingSecret decl.name decl.source)
      | none, some decl => result = .error (.missingVariable decl.name)
      | none, none =>
        ∃ b,
          result = .ok b ∧
          (∀ name, b.isSecret name = true ↔ name ∈ secretNames) ∧
          ∀ name, b.get? name = engine.startValue? agent fields name := by
  dsimp only
  unfold seed
  cases hsecrets : agent.secrets.find? fun decl => (engine.secrets decl).isNone with
  | some decl =>
    rw [bindSecrets_of_unresolved hsecrets]
  | none =>
    obtain ⟨secrets, hbound, hnames, hvalues⟩ := bindSecrets_of_resolved hsecrets {}
    rw [hbound]
    have hnames' : ∀ name,
        name ∈ (agent.bindInput (inputFields input) secrets).secretNames
          ↔
        name ∈ agent.secrets.map SecretDecl.name := by
      intro name
      rw [bindInput_secretNames, hnames]
      simp
    rw [← isMissing_congr hnames']
    cases hvars : agent.vars.find? (engine.isMissing (inputFields input)
        (agent.bindInput (inputFields input) secrets).secretNames) with
    | some decl => exact bindVariables_of_missing hvars
    | none =>
      obtain ⟨b, hvariables, hget⟩ := bindVariables_of_found hvars
      refine ⟨b, hvariables, ?_, ?_⟩
      . intro name
        unfold Bindings.isSecret
        rw [bindVariables_secretNames hvariables, List.contains_iff_mem]
        exact hnames' name
      . intro name
        rw [hget]
        apply startValue?_eq hinput
        . rw [hnames]
          simp
        . rw [hvalues]
          exact Option.or_none

def furnished : Engine where
  secrets := SecretSource.fixed [("env:OLD", "old-key"), ("env:NEW", "new-key")]
  env := [("tone", "loud")]

def crowded : Agent where
  secrets := [⟨"KEY", "env:OLD", 5⟩, ⟨"KEY", "env:NEW", 6⟩]
  vars := [{ name := "KEY", required := true },
    { name := "tone", source := .literal, default := some (.str "calm") },
    { name := "tone", source := .env, default := some (.str "dry") },
    { name := "tone" },
    { name := "name", required := true },
    { name := "mode", source := .literal }]

theorem seed_precedence_of_crowded
    : let input : Json := .obj [("KEY", .str "stolen"), ("name", .str "Ada"),
        ("mode", .str "fast"), ("extra", .int 1)]
      (inputFields input).keys.Nodup ∧
      ∃ b,
        (furnished.seed crowded input).1 = .ok b ∧
        b.isSecret "KEY" = true ∧
        ["KEY", "tone", "name", "mode", "extra", "other"].map b.get?
          =
        [some (.str "new-key"), some (.str "loud"), some (.str "Ada"), none, some (.int 1),
          none] := by
  intro input
  have hinput : (inputFields input).keys.Nodup := by decide
  refine ⟨hinput, ?_⟩
  obtain ⟨b, hseed, hsecret, hvalues⟩ := seed_precedence furnished crowded hinput
  refine ⟨b, hseed, (hsecret "KEY").mpr (by decide), ?_⟩
  rw [funext hvalues]
  rfl

end Engine

end Runbook
