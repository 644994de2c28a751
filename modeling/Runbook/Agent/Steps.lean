import Runbook.Agent.Definition
import Runbook.Source.Tree

/-!
This module contains the reading of a step from its fields. The kind and the provider of a step
header come before fields of these names, and of a repeated field the first one counts for the step
itself. All fields that are not the step's own become its config.
-/

namespace Runbook.Agent

open Source

def field? (fields : List Entry) (name : String) : Option Entry :=
  fields.find? (·.1.key = name)

/-- The text of the first field with a name, if its value is a scalar. -/
def fieldText? (fields : List Entry) (name : String) : Option String :=
  ((field? fields name).bind (·.2.scalar?)).map Scalar.text

def notBlank (text : String) : Bool :=
  !Text.allBlank text.toList

/-- Adds the members of a config block, none of which replaces a field that is there already. -/
def foldConfig (config members : Json.Fields) : Json.Fields :=
  members.foldl (fun config (k, v) => config.insertNew k v) config

/-- Adds a field to the config. A field `config` that is a block gives its members instead. -/
def addField (config : Json.Fields) (field : Entry) : Json.Fields :=
  let key := field.1.key
  if Step.ownFields.contains key then
    config
  else
    match key, field.2.toJson with
    | "config", .obj members => foldConfig config members
    | _, value => config.insert key value

def configOf (fields : List Entry) : Json.Fields :=
  fields.foldl addField []

/-- Where a step was found, and what is known of it without its fields. -/
structure StepSite where
  id : Option String := none
  head : Option StepHead := none
  line : Nat
  column : Nat
  form : StepForm

def errorAt (label : Label) (message hint : String) : Diagnostic :=
  (Diagnostic.error label.line label.column message).withSuggestion hint

def warningAt (label : Label) (message : String) : Diagnostic :=
  Diagnostic.warning label.line label.column message

/-- The number of retries; none means zero. -/
def readRetries (id : String) (fields : List Entry) : Noted Nat :=
  match field? fields "retries" with
  | none => pure 0
  | some (label, node) =>
    match node.toJson.asNat?.filter (· < UInt32.size) with
    | some n => pure n
    | none => ⟨0, [errorAt label s!"Step '{id}': \x60retries\x60 must be a non-negative integer"
        "Write e.g. \x60retries: 2\x60"]⟩

/-- The time limit of one attempt in milliseconds. -/
def readTimeout (id : String) (fields : List Entry) : Noted (Option Nat) :=
  match field? fields "timeout_ms" with
  | none => pure none
  | some (label, node) =>
    match node.toJson.asNat?.filter (0 < ·) with
    | some n => pure (some n)
    | none => ⟨none, [errorAt label s!"Step '{id}': \x60timeout_ms\x60 must be a positive integer"
        "Write the timeout in milliseconds, e.g. \x60timeout_ms: 5000\x60"]⟩

/-- The kind of a step: from its header, or from the field `kind`, or from the field `type`. -/
def kindOf? (site : StepSite) (fields : List Entry) : Option String :=
  ((site.head.bind (·.kind)).or ((fieldText? fields "kind").or (fieldText? fields "type"))).filter
    notBlank

/-- Reads a step; one without an id or a kind is reported and left out. -/
def readStep (site : StepSite) (fields : List Entry) : Noted (Option Step) :=
  match (site.id.or (fieldText? fields "id")).filter notBlank with
  | none => ⟨none, [(Diagnostic.error site.line site.column
      "Step is missing \x60id\x60").withSuggestion
      "Give every step a unique \x60id: <name>\x60"]⟩
  | some id =>
    match kindOf? site fields with
    | none => ⟨none, [(Diagnostic.error site.line site.column
        s!"Step '{id}' is missing \x60kind\x60").withSuggestion
        "Add \x60kind: llm\x60 (or http, vision, function, ...)"]⟩
    | some kind => do
      let retries ← readRetries id fields
      let timeout ← readTimeout id fields
      return some {
        id, kind
        provider := (site.head.bind (·.provider)).or (fieldText? fields "provider")
        config := configOf fields
        guard := fieldText? fields "when"
        retries, timeout
        save := (fieldText? fields "save").filter notBlank
        line := site.line
        form := site.form }

def readFlatStep (entry : Entry) : Noted (Option Step) :=
  let (label, node) := entry
  let site : StepSite :=
    { id := some label.key, head := label.head, line := label.line, column := label.column,
      form := .flat }
  match node with
  | .map fields => readStep site fields
  | .empty => readStep site []
  | _ => ⟨none, [errorAt label
      s!"Step '{label.key}' must be followed by an indented block of fields"
      "Write \x60step <id>: <kind> [provider]\x60 and indent the fields below it"]⟩

def readListStep (item : Item) : Noted (Option Step) :=
  let (place, node) := item
  match node with
  | .map fields =>
    readStep { line := place.line, column := place.column, form := .list } fields
  | _ => ⟨none, [(Diagnostic.error place.line place.column
      "Step must be a block of fields").withSuggestion
      "Write \x60- id: <id>\x60 followed by \x60kind: <kind>\x60 on the next line"]⟩

/-- Reads the section of steps: a list of them, or entries named by their ids. -/
def readSteps (entry : Entry) : Noted (List Step) :=
  let (label, node) := entry
  match node with
  | .list items => do
    let steps ← Noted.mapAll readListStep items
    return steps.filterMap fun step => step
  | .map fields => do
    let steps ← Noted.mapAll readFlatStep fields
    return steps.filterMap fun step => step
  | .empty => pure []
  | .scalar _ => ⟨[], [errorAt label "Steps must be a list"
      "Write each step as \x60- id: <id>\x60 under \x60steps:\x60"]⟩

end Runbook.Agent
