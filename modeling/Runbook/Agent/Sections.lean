import Runbook.Agent.Steps
import Runbook.Agent.Suggestion

/-!
This module contains the reading of an agent from a source text: its header and its end, then its
sections one after another. Whatever cannot be understood is reported, and the rest is still read.
-/

namespace Runbook.Agent

open Source

def sectionNames : List String :=
  ["description", "trigger", "secrets", "vars", "steps", "outputs"]

def variableFields : List String :=
  ["type", "source", "required", "default", "description"]

/-- A warning with the word that may have been meant, if there is one. -/
def withGuess (d : Diagnostic) (word : String) (known : List String) : Diagnostic :=
  match suggestion word known with
  | some guess => d.withSuggestion s!"Did you mean '{guess}'?"
  | none => d

def readText (entry : Entry) : Noted (Option String) :=
  let (label, node) := entry
  match node with
  | .scalar value => pure (some value.text)
  | .empty => pure none
  | _ => ⟨none, [errorAt label s!"'{label.key}' must be a single value"
      "Quote the text or use a \x60|\x60 block"]⟩

/-- Reads the trigger: one value, or a block of fields. -/
def readTrigger (entry : Entry) : Noted Trigger :=
  let (label, node) := entry
  match node with
  | .scalar value => pure { spec := some value.text, line := label.line }
  | .map fields => pure { fields := Node.entriesToJson [] fields, line := label.line }
  | .empty => ⟨{ line := label.line }, [errorAt label "Trigger section is empty"
      "Describe the trigger inline (\x60trigger: manual\x60) or as an indented block"]⟩
  | .list _ => ⟨{ line := label.line }, [errorAt label
      "Trigger must be a value or a block of fields, not a list"
      "Write \x60trigger:\x60 followed by indented \x60key: value\x60 lines"]⟩

/--
A declared secret. A source without a scheme is the name of an environment variable, and without a
source the secret's own name is.
-/
def secretDecl (name : String) (source : Option String) (line : Nat) : SecretDecl :=
  match source.filter notBlank with
  | some s => { name, source := if s.toList.contains ':' then s else "env:" ++ s, line }
  | none => { name, source := "env:" ++ name, line }

/-- A secret from an entry; only a scalar gives its source. -/
def secretOfEntry (entry : Entry) : SecretDecl :=
  secretDecl entry.1.key (entry.2.scalar?.map Scalar.text) entry.1.line

def readSecretItem (item : Item) : Noted (List SecretDecl) :=
  let (place, node) := item
  match node with
  | .scalar value => pure [secretDecl value.text none place.line]
  | .map fields => pure (fields.map secretOfEntry)
  | _ => ⟨[], [(Diagnostic.error place.line place.column
      "Secret entries must be \x60NAME\x60 or \x60NAME: env:VAR\x60").withSuggestion
      "Write \x60- OPENAI_KEY: env:OPENAI_API_KEY\x60"]⟩

/-- Reads the secrets: a list of them, or entries with their sources. -/
def readSecrets (entry : Entry) : Noted (List SecretDecl) :=
  let (label, node) := entry
  match node with
  | .list items => do
    let secrets ← Noted.mapAll readSecretItem items
    return secrets.flatten
  | .map fields => pure (fields.map secretOfEntry)
  | .empty => pure []
  | .scalar _ => ⟨[], [errorAt label "Secrets must be a list"
      "Write each secret on its own \x60- NAME\x60 line"]⟩

/-- The text of a scalar, and nothing for another node. -/
def scalarText (node : Node) : String :=
  (node.scalar?.map Scalar.text).getD ""

def readProperty (spec : Variable) (entry : Entry) : Noted Variable :=
  let (label, node) := entry
  match label.key with
  | "type" =>
    match VarType.read? (scalarText node) with
    | some type => pure { spec with type }
    | none => ⟨spec, [(warningAt label
        s!"Unknown variable type '{scalarText node}'").withSuggestion
        "Use one of: string, number, boolean, array, object"]⟩
  | "source" =>
    match VarSource.read? (scalarText node) with
    | some source => pure { spec with source }
    | none => ⟨spec, [(warningAt label
        s!"Unknown variable source '{scalarText node}'").withSuggestion
        "Use one of: input, env, literal, computed"]⟩
  | "required" =>
    match node.toJson with
    | .bool required => pure { spec with required }
    | other => ⟨spec, [(warningAt label
        s!"\x60required\x60 should be true or false, found {other.text}").withSuggestion
        "Write \x60required: true\x60"]⟩
  | "default" => pure { spec with default := some node.toJson }
  | "description" => pure spec
  | other =>
    ⟨spec, [withGuess (warningAt label s!"Unknown variable field '{other}' ignored") other
      variableFields]⟩

/-- Reads a variable: the name of a type gives its type, any other value its default. -/
def readVariable (entry : Entry) : Noted Variable :=
  let (label, node) := entry
  let spec : Variable := { name := label.key, line := label.line }
  match node with
  | .empty => pure spec
  | .scalar (.atom (.plain text)) =>
    match VarType.read? text with
    | some type => pure { spec with type }
    | none => pure { spec with default := some (plainValue text) }
  | .scalar value => pure { spec with default := some value.toJson }
  | .map properties => properties.foldlM readProperty spec
  | .list _ => pure { spec with default := some node.toJson }

def readVariables (entry : Entry) : Noted (List Variable) :=
  let (label, node) := entry
  match node with
  | .map fields => Noted.mapAll readVariable fields
  | .empty => pure []
  | _ => ⟨[], [errorAt label "Variables must be a block of \x60name:\x60 entries"
      "Write \x60vars:\x60 followed by indented \x60name: type\x60 lines"]⟩

/-- Reads an output; a block is reported and stands for its JSON text. -/
def readOutput (entry : Entry) : Noted Output :=
  let (label, node) := entry
  match node with
  | .scalar value => pure { name := label.key, template := value.text, line := label.line }
  | .empty => pure { name := label.key, template := "", line := label.line }
  | _ => ⟨{ name := label.key, template := node.toJson.text, line := label.line },
      [errorAt label s!"Output '{label.key}' must be a single template"
        "Quote the template, e.g. \x60\"\x7bresult\x7d\"\x60"]⟩

def readOutputs (entry : Entry) : Noted (List Output) :=
  let (label, node) := entry
  match node with
  | .map fields => Noted.mapAll readOutput fields
  | .empty => pure []
  | _ => ⟨[], [errorAt label "Outputs must be a block of \x60name: template\x60 entries"
      "Write \x60outputs:\x60 followed by \x60response: \"\x7bgreeting\x7d\"\x60"]⟩

/-- What has been read of an agent so far. -/
structure Draft where
  agent : Agent := {}
  /-- The sections met so far. -/
  seen : List String := []
  hasTrigger : Bool := false
  hasSteps : Bool := false

namespace Draft

/-- Reads the section with the entry's key. -/
def readSection (draft : Draft) (entry : Entry) : Noted Draft := do
  let agent := draft.agent
  match entry.1.key with
  | "description" =>
    let description ← readText entry
    return { draft with agent := { agent with description } }
  | "trigger" =>
    let trigger ← readTrigger entry
    return { draft with agent := { agent with trigger }, hasTrigger := true }
  | "secrets" =>
    let secrets ← readSecrets entry
    return { draft with agent := { agent with secrets := agent.secrets ++ secrets } }
  | "vars" =>
    let vars ← readVariables entry
    return { draft with agent := { agent with vars := agent.vars ++ vars } }
  | "steps" =>
    let steps ← readSteps entry
    return { draft with agent := { agent with steps := agent.steps ++ steps }, hasSteps := true }
  | "outputs" =>
    let outputs ← readOutputs entry
    return { draft with agent := { agent with outputs := agent.outputs ++ outputs } }
  | other =>
    Noted.note (withGuess (warningAt entry.1 s!"Unknown section '{other}' ignored") other
      sectionNames)
    return draft

def repeatNotes (draft : Draft) (label : Label) : List Diagnostic :=
  if draft.seen.contains label.key then
    [(warningAt label s!"Section '{label.key}' appears more than once").withSuggestion
      "Merge the sections; later entries are appended or take precedence"]
  else
    []

/-- Reads one entry at the top of a text: a step header, or a section. -/
def addEntry (draft : Draft) (entry : Entry) : Noted Draft :=
  if entry.1.head.isSome then do
    let step ← readFlatStep entry
    let agent := draft.agent
    return { draft with
      agent := { agent with steps := agent.steps ++ step.toList }, hasSteps := true }
  else do
    Noted.noteAll (draft.repeatNotes entry.1)
    let key := entry.1.key
    let seen := if sectionNames.contains key then draft.seen ++ [key] else draft.seen
    { draft with seen }.readSection entry

end Draft

/-- The header of an agent. -/
structure Header where
  id : String
  version : String
  line : Nat

def headerUsage : String :=
  "Use \x60@agent <id> <version>\x60, e.g. \x60@agent hello v1\x60"

/-- Reads the arguments of a header; missing ones are empty. -/
def readHeader (line : Line) (args : List String) : Noted Header :=
  let header : Header := ⟨args[0]?.getD "", args[1]?.getD "", line.number⟩
  let note (d : Diagnostic) := (d.withContext line.text).withSuggestion headerUsage
  let notes :=
    if header.id.isEmpty || header.version.isEmpty then
      let what := if header.id.isEmpty then "id and version" else "version"
      [note (Diagnostic.error line.number line.column
        s!"Malformed @agent header: missing {what}")]
    else if 2 < args.length then
      let extra := " ".intercalate (args.drop 2)
      [note (Diagnostic.warning line.number line.column
        s!"Ignoring extra @agent arguments: {extra}")]
    else
      []
  ⟨header, notes⟩

/-- The lines of a text without its directives, and its header. -/
structure Outline where
  header : Option Header := none
  body : List Line := []

/-- The warning on the first line after the end of an agent. -/
def afterEnd (endLine : Nat) (lines : List Line) : List Diagnostic :=
  match lines with
  | [] => []
  | line :: _ =>
    [(Diagnostic.warning line.number line.column "Content after @end is ignored").withContext
      line.text |>.withSuggestion
        s!"Move this content above the @end on line {endLine}, or delete it"]

/-- Sorts the lines of a text into directives and body; nothing after the end is read. -/
def outline (header : Option Header) (lines : List Line) : Noted Outline :=
  match lines with
  | [] => pure { header }
  | line :: rest =>
    match line.token with
    | .directive "agent" args =>
      match header with
      | some first => do
        Noted.note ((Diagnostic.error line.number line.column "Repeated @agent header").withContext
          line.text |>.withSuggestion
            s!"One agent per source; the header on line {first.line} is kept")
        outline header rest
      | none => do
        let header ← readHeader line args
        outline (some header) rest
    | .directive "end" _ => ⟨{ header }, afterEnd line.number rest⟩
    | .directive name _ => do
      Noted.note ((Diagnostic.warning line.number line.column
        s!"Unknown directive '@{name}' ignored").withContext line.text |>.withSuggestion
          "Known directives are @agent and @end")
      outline header rest
    | _ => do
      let more ← outline header rest
      return { more with body := line :: more.body }

/-- The error on a missing header, at the first line. -/
def headerNotes (header : Option Header) (lines : List Line) : List Diagnostic :=
  match header with
  | some _ => []
  | none =>
    let (line, column) := match lines with
      | first :: _ => (first.number, first.column)
      | [] => (1, 1)
    [(Diagnostic.error line column "Missing @agent header").withSuggestion
      "Start the source with \x60@agent <id> <version>\x60"]

/-- The error on a missing trigger, at the header; text that is no agent at all needs none. -/
def triggerNotes (header : Option Header) (draft : Draft) : List Diagnostic :=
  let missing (line : Nat) := [(Diagnostic.error line 1 "Missing trigger section").withSuggestion
    "Declare how the agent is invoked, e.g. \x60trigger: manual\x60"]
  if draft.hasTrigger then
    []
  else
    match header with
    | some h => missing h.line
    | none => if draft.hasSteps then missing 1 else []

/--
Reads an agent from the lines of a text. There is none if the text has neither a header nor a
trigger nor steps.
-/
def ofLines (lines : List Line) : Noted (Option Agent) := do
  let parts ← outline none lines
  Noted.noteAll (headerNotes parts.header lines)
  let entries ← buildTree parts.body
  let draft ← entries.foldlM Draft.addEntry {}
  Noted.noteAll (triggerNotes parts.header draft)
  if parts.header.isSome || draft.hasTrigger || draft.hasSteps then
    let trigger := draft.agent.trigger
    return some { draft.agent with
      id := (parts.header.map (·.id)).getD ""
      version := (parts.header.map (·.version)).getD ""
      trigger := { trigger with line := max 1 trigger.line } }
  else
    return none

end Runbook.Agent
