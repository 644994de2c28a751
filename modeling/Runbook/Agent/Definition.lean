import Runbook.Json
import Runbook.Text.Blank

/-!
This module contains the definition of an agent: how it is invoked, the secrets and variables it
declares, the steps it takes in order, and the outputs it renders at the end.
-/

namespace Runbook.Agent

/-- How an agent is invoked; it has no meaning for its execution. -/
structure Trigger where
  spec : Option String := none
  fields : Json.Fields := []
  line : Nat := 0

/-- A named secret and where its value comes from, such as `env:NAME`. -/
structure SecretDecl where
  name : String
  source : String
  line : Nat := 0
  deriving DecidableEq

/-- The declared type of a variable. -/
inductive VarType where
  | string
  | number
  | boolean
  | array
  | object
  deriving DecidableEq, Repr, Inhabited

namespace VarType

/-- Reads the name of a type, in any mixture of ASCII cases. -/
def read? (text : String) : Option VarType :=
  let word := String.ofList ((Text.trim text.toList).map Char.toLower)
  if ["string", "str", "text"].contains word then some string
  else if ["number", "int", "integer", "float"].contains word then some number
  else if ["boolean", "bool"].contains word then some boolean
  else if ["array", "list"].contains word then some array
  else if ["object", "map"].contains word then some object
  else none

def name : VarType → String
  | string => "string"
  | number => "number"
  | boolean => "boolean"
  | array => "array"
  | object => "object"

end VarType

/-- Where the value of a variable comes from. -/
inductive VarSource where
  | input
  | env
  | literal
  | computed
  deriving DecidableEq, Repr, Inhabited

namespace VarSource

/-- Reads the name of a source, in any mixture of ASCII cases. -/
def read? (text : String) : Option VarSource :=
  let word := String.ofList ((Text.trim text.toList).map Char.toLower)
  if word = "input" then some input
  else if ["env", "environment"].contains word then some env
  else if ["literal", "const"].contains word then some literal
  else if word = "computed" then some computed
  else none

def name : VarSource → String
  | input => "input"
  | env => "env"
  | literal => "literal"
  | computed => "computed"

end VarSource

/-- A declared variable. -/
structure Variable where
  name : String
  type : VarType := .string
  source : VarSource := .input
  required : Bool := false
  default : Option Json := none
  line : Nat := 0

/-- How a step is written. -/
inductive StepForm where
  /-- As a header with its fields below. -/
  | flat
  /-- As an item of the list of steps. -/
  | list
  deriving DecidableEq, Repr

def StepForm.name : StepForm → String
  | flat => "flat"
  | list => "list"

/-- A unit of work for the capability of a kind and a provider. -/
structure Step where
  id : String
  kind : String
  provider : Option String := none
  /-- What the capability is given; its strings are templates. -/
  config : Json.Fields := []
  /-- The guard: the step is skipped unless it holds. -/
  guard : Option String := none
  retries : Nat := 0
  timeout : Option Nat := none
  /-- The name that the result is bound to. -/
  save : Option String := none
  line : Nat := 0
  form : StepForm := .list

namespace Step

/-- The fields that a step has for itself, and that are no part of its config. -/
def ownFields : List String :=
  ["id", "kind", "type", "provider", "when", "retries", "timeout_ms", "save"]

def text (step : Step) : String :=
  match step.provider with
  | some provider => s!"{step.id} ({step.kind}/{provider})"
  | none => s!"{step.id} ({step.kind})"

end Step

/-- A named template that is part of the result. -/
structure Output where
  name : String
  template : String
  line : Nat := 0
  deriving DecidableEq

end Agent

/-- An agent: what it declares and what it does. -/
structure Agent where
  id : String := ""
  version : String := ""
  description : Option String := none
  trigger : Agent.Trigger := {}
  secrets : List Agent.SecretDecl := []
  vars : List Agent.Variable := []
  steps : List Agent.Step := []
  outputs : List Agent.Output := []

namespace Agent

def findStep (agent : Agent) (id : String) : Option Step :=
  agent.steps.find? (·.id = id)

/-- The position of the first step with an id. -/
def stepIndex? (agent : Agent) (id : String) : Option Nat :=
  agent.steps.findIdx? (·.id = id)

def findVariable (agent : Agent) (name : String) : Option Variable :=
  agent.vars.find? (·.name = name)

end Agent

end Runbook
