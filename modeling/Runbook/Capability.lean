import Runbook.Agent.Definition
import Runbook.Failure
import Runbook.Log

/-!
This module contains capabilities, the backends that do the work of steps, and the registry that
finds one for a step: under the step's kind and provider, or else under the kind alone.
-/

namespace Runbook

/-- What a capability gets to see: the filled-in config of a step and all bindings. -/
structure Request where
  step : String
  kind : String
  provider : Option String
  config : Json.Fields
  bindings : Json.Fields

namespace Request

def field? (request : Request) (name : String) : Option Json :=
  request.config.get? name

def fieldText? (request : Request) (name : String) : Option String :=
  (request.field? name).bind Json.asString?

def toJson (request : Request) : Json :=
  .obj [("step_id", .str request.step), ("kind", .str request.kind),
    ("provider", match request.provider with | some p => .str p | none => .null),
    ("config", .obj request.config), ("bindings", .obj request.bindings)]

end Request

/-- What a capability answers, and how many milliseconds it takes. -/
structure Answer where
  delay : Nat := 0
  result : Except Cause Json

/-- A backend. It may answer differently depending on how often it was called before. -/
abbrev Capability := (earlierCalls : Nat) → Request → Answer

namespace Capability

/-- Answers with the config it is given. -/
def echo : Capability := fun _ request => { result := .ok (.obj request.config) }

def constant (value : Json) : Capability := fun _ _ => { result := .ok value }

/-- What a capability is registered under; without a provider it serves every provider. -/
structure Key where
  kind : String
  provider : Option String
  deriving DecidableEq

namespace Key

/-- A name without blanks at its ends and in small ASCII letters. -/
def normalize (name : String) : String :=
  String.ofList ((Text.trim name.toList).map Char.toLower)

/-- The key of a kind and a provider; a blank provider is none. -/
def of (kind : String) (provider : Option String) : Key :=
  ⟨normalize kind, (provider.map normalize).filter (!·.isEmpty)⟩

def text (key : Key) : String :=
  match key.provider with
  | some provider => key.kind ++ "/" ++ provider
  | none => key.kind ++ "/*"

/-- The order of keys: by kind, then by provider, the default of a kind first. -/
def notAfter (a b : Key) : Bool :=
  a.kind < b.kind || (a.kind = b.kind &&
    match a.provider, b.provider with
    | none, _ => true
    | some _, none => false
    | some p, some q => p ≤ q)

end Key

end Capability

/-- A registered capability. Its number tells it from all others ever registered. -/
structure Backend where
  number : Nat
  capability : Capability

/-- The capabilities under their keys. -/
structure Registry where
  entries : List (Capability.Key × Backend) := []
  /-- The number of the next capability. -/
  next : Nat := 0

namespace Registry

open Capability

/-- The capability under exactly this key. -/
def find? (registry : Registry) (key : Key) : Option Backend :=
  registry.entries.lookup key

/-- Registers a capability in the place of the one under the same key, if there is one. -/
def register (registry : Registry) (kind : String) (provider : Option String)
    (capability : Capability) : Registry :=
  let key := Key.of kind provider
  { entries := (key, ⟨registry.next, capability⟩) :: registry.entries.filter (·.1 ≠ key)
    next := registry.next + 1 }

def registration (kind : String) (provider : Option String) : Record :=
  .debug "registering capability" [("capability", (Key.of kind provider).text)]

def unregister (registry : Registry) (kind : String) (provider : Option String) : Registry :=
  let key := Key.of kind provider
  { registry with entries := registry.entries.filter (·.1 ≠ key) }

/-- Whether a capability is registered under exactly this key, which is what unregistering answers. -/
def contains (registry : Registry) (kind : String) (provider : Option String) : Bool :=
  (registry.find? (Key.of kind provider)).isSome

/-- The capability for a kind and a provider, or else the default one of the kind. -/
def get? (registry : Registry) (kind : String) (provider : Option String) : Option Backend :=
  (registry.find? (Key.of kind provider)).or (registry.find? (Key.of kind none))

/-- The capability for a step. -/
def resolve (registry : Registry) (step : Agent.Step) : Except ExecutionError Backend :=
  match registry.get? step.kind step.provider with
  | some backend => .ok backend
  | none => .error (.noCapability step.id step.kind (step.provider.getD "default"))

def keys (registry : Registry) : List Key :=
  (registry.entries.map Prod.fst).mergeSort Key.notAfter

def size (registry : Registry) : Nat :=
  registry.entries.length

end Registry

end Runbook
