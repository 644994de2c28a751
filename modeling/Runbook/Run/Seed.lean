import Runbook.Run.Engine

/-!
This module contains the bindings that a run starts with: the declared secrets, then the members of
the input that no variable is declared for, then the declared variables in their order. The input
never hides a secret.
-/

namespace Runbook

namespace Agent

/-- The members of an input. An input that is neither an object nor null has none. -/
def inputFields : Json → Json.Fields
  | .obj fields => fields
  | _ => []

/-- The log record of an input that has no members and is not null. -/
def inputNote : Json → List Record
  | .obj _ => []
  | .null => []
  | other => [.warn "execution input is not an object; ignoring it" [("kind", other.kind)]]

/-- Binds the members of an input that are neither secrets nor declared as variables. -/
def bindInput (agent : Agent) (fields : Json.Fields) (bindings : Bindings) : Bindings :=
  fields.foldl (fun b (key, value) =>
    if b.isSecret key || (agent.findVariable key).isSome then b else b.set key value) bindings

/-- The log records of the members of an input that are named like secrets. -/
def shadowNotes (fields : Json.Fields) (bindings : Bindings) : List Record :=
  (fields.keys.filter bindings.isSecret).map fun key =>
    .warn "input may not override a secret; ignored" [("name", LogText.safe key)]

/-- The log record of a variable that has no value and needs none. -/
def unboundNote (decl : Variable) : Record :=
  .debug "optional variable left unbound" [("name", decl.name)]

end Agent

namespace Engine

open Agent

def bindSecret (engine : Engine) (bindings : Bindings) (decl : SecretDecl)
    : Except ExecutionError Bindings :=
  match engine.secrets decl with
  | some value => .ok (bindings.setSecret decl.name value)
  | none => .error (.missingSecret decl.name decl.source)

def valueOf (engine : Engine) (input : Json.Fields) (decl : Variable) : Option Json :=
  match decl.source with
  | .literal => decl.default
  | .env =>
    (input.get? decl.name).or (((engine.env.get? decl.name).map Json.str).or decl.default)
  | .input => (input.get? decl.name).or decl.default
  | .computed => (input.get? decl.name).or decl.default

/-- Binds the declared variables that have a value; one that is required must have one. -/
def bindVariables (engine : Engine) (input : Json.Fields)
    : List Variable → Bindings → Except ExecutionError Bindings × List Record
  | [], bindings => (.ok bindings, [])
  | decl :: rest, bindings =>
    if bindings.isSecret decl.name then
      bindVariables engine input rest bindings
    else
      match engine.valueOf input decl with
      | some value => bindVariables engine input rest (bindings.set decl.name value)
      | none =>
        if decl.required then
          (.error (.missingVariable decl.name), [])
        else
          let (result, notes) := bindVariables engine input rest bindings
          (result, unboundNote decl :: notes)

/-- The bindings that an agent starts with, and what is logged on the way to them. -/
def seed (engine : Engine) (agent : Agent) (input : Json)
    : Except ExecutionError Bindings × List Record :=
  match agent.secrets.foldlM engine.bindSecret {} with
  | .error error => (.error error, [])
  | .ok secrets =>
    let fields := inputFields input
    let (result, notes) :=
      engine.bindVariables fields agent.vars (agent.bindInput fields secrets)
    (result, inputNote input ++ shadowNotes fields secrets ++ notes)

end Engine

end Runbook
