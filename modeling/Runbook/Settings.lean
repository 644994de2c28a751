import Runbook.Files
import Runbook.Retry
import Runbook.Secret
import Runbook.Template
import Runbook.Toml.Document

/-!
This module contains the settings of an engine: their defaults, their TOML form, the values from the
environment that go before them, and the search for a settings file.
-/

namespace Runbook

/-- What happens when a step has failed for good. -/
inductive FailurePolicy where
  /-- The run ends with the error. -/
  | abort
  /-- The failure is recorded and the run goes on. -/
  | continue
  deriving DecidableEq, Repr, Inhabited

namespace FailurePolicy

def name : FailurePolicy → String
  | abort => "abort"
  | .continue => "continue"

/-- Reads the name of a policy, in any mixture of ASCII cases. -/
def read (text : String) : Except String FailurePolicy :=
  let word := String.ofList ((Text.trim text.toList).map Char.toLower)
  if word = "abort" then .ok abort
  else if word = "continue" then .ok .continue
  else .error s!"unknown failure policy '{word}' (expected abort or continue)"

end FailurePolicy

/-- The pauses between attempts, their lengths aside. -/
inductive BackoffKind where
  | none
  | fixed
  | exponential
  deriving DecidableEq, Repr, Inhabited

def BackoffKind.name : BackoffKind → String
  | none => "none"
  | fixed => "fixed"
  | exponential => "exponential"

def MissingPolicy.name : MissingPolicy → String
  | empty => "empty"
  | keep => "keep"

/-- How an engine runs agents. -/
structure Settings where
  /-- The time limit in milliseconds for an attempt of a step that has none of its own. -/
  defaultTimeout : Nat := 60000
  backoffKind : BackoffKind := .none
  /-- The fixed pause, or the first one of an exponential backoff. -/
  retryDelay : Nat := 500
  maxRetryDelay : Nat := 30000
  failurePolicy : FailurePolicy := .abort
  missing : MissingPolicy := .empty
  traceCapacity : Nat := 1000
  /-- Debug sessions that were left alone for longer are removed. -/
  sessionIdleSeconds : Nat := 3600
  deriving DecidableEq

namespace Settings

/-- The pauses between attempts. -/
def backoff (s : Settings) : Backoff :=
  match s.backoffKind with
  | .none => .none
  | .fixed => .fixed s.retryDelay
  | .exponential => .exponential s.retryDelay s.maxRetryDelay

def toJson (s : Settings) : Json :=
  .obj [("default_timeout_ms", .int s.defaultTimeout), ("retry_backoff", .str s.backoffKind.name),
    ("retry_delay_ms", .int s.retryDelay), ("max_retry_delay_ms", .int s.maxRetryDelay),
    ("failure_policy", .str s.failurePolicy.name), ("missing_variables", .str s.missing.name),
    ("max_trace_events", .int s.traceCapacity),
    ("session_idle_timeout_secs", .int s.sessionIdleSeconds)]

/-- A whole number that is not negative and fits in 64 bits. -/
def count? : Toml → Option Nat
  | .integer n => if 0 ≤ n ∧ n < UInt64.size then some n.toNat else none
  | _ => none

/--
The value whose name a string is. Instead of a string there can be a table whose only key is the
name, with nothing below it.
-/
def named? {α : Type} (name : α → String) (all : List α) : Toml → Option α
  | .string s => all.find? (name · = s)
  | .table [(s, .table [])] => all.find? (name · = s)
  | .table [(s, .array [])] => all.find? (name · = s)
  | _ => none

/-- Takes over one entry of a settings file; entries with other names have no effect. -/
def addEntry (s : Settings) (entry : String × Toml) : Option Settings :=
  let (key, value) := entry
  match key with
  | "default_timeout_ms" => (count? value).map ({ s with defaultTimeout := · })
  | "retry_backoff" =>
    (named? BackoffKind.name [.none, .fixed, .exponential] value).map ({ s with backoffKind := · })
  | "retry_delay_ms" => (count? value).map ({ s with retryDelay := · })
  | "max_retry_delay_ms" => (count? value).map ({ s with maxRetryDelay := · })
  | "failure_policy" =>
    (named? FailurePolicy.name [.abort, .continue] value).map ({ s with failurePolicy := · })
  | "missing_variables" =>
    (named? MissingPolicy.name [.empty, .keep] value).map ({ s with missing := · })
  | "max_trace_events" => (count? value).map ({ s with traceCapacity := · })
  | "session_idle_timeout_secs" => (count? value).map ({ s with sessionIdleSeconds := · })
  | _ => some s

/-- The settings of a file; what it leaves out has its default. -/
def ofToml? (text : String) : Option Settings :=
  (Toml.parse? text).bind fun entries => entries.foldlM addEntry {}

/-- The error on a settings file, where no file has a name. -/
def parseError : String :=
  "Failed to parse config"

/-- A number from the environment; one that is not set leaves the default. -/
def numberFrom (env : Environment) (name : String) (default : Nat) : Except String Nat :=
  match env.get? name with
  | none => .ok default
  | some text =>
    match Text.natBelow? UInt64.size (Text.trim text.toList) with
    | some n => .ok n
    | none => .error s!"{name} is not a number: {text}"

/-- Puts the values from the environment before those of the settings. -/
def override (s : Settings) (env : Environment) : Except String Settings := do
  let defaultTimeout ← numberFrom env "AGENTFLOW_DEFAULT_TIMEOUT_MS" s.defaultTimeout
  let retryDelay ← numberFrom env "AGENTFLOW_RETRY_DELAY_MS" s.retryDelay
  let failurePolicy ← match env.get? "AGENTFLOW_FAILURE_POLICY" with
    | none => .ok s.failurePolicy
    | some text => FailurePolicy.read text
  return { s with defaultTimeout, retryDelay, failurePolicy }

/-- What makes settings useless, if anything does. -/
def problem? (s : Settings) : Option String :=
  if s.defaultTimeout = 0 then
    some "default_timeout_ms must be greater than zero"
  else if s.traceCapacity = 0 then
    some "max_trace_events must be greater than zero"
  else if s.backoffKind = .exponential ∧ s.maxRetryDelay < s.retryDelay then
    some "max_retry_delay_ms must not be smaller than retry_delay_ms"
  else
    none

/-- The settings of a file. -/
def ofFile (files : Files) (path : String) : Except String Settings :=
  match files.read? path with
  | none => .error s!"Failed to read config from {path}"
  | some text =>
    match ofToml? text with
    | some s => .ok s
    | none => .error s!"{parseError} at {path}"

/-- Where a settings file is looked for when no path is given. -/
def defaultPaths (home : Option String) : List String :=
  "agentflow.toml" :: (home.map (· ++ "/.config/agentflow/config.toml")).toList

def noFile : Record :=
  .debug "No config file found, using defaults" []

/--
The settings of the file at a path, or else of the first default file, or else the defaults; then
the environment; then the check. The records are what the search writes to the log.
-/
def load (files : Files) (home : Option String) (env : Environment) (path : Option String)
    : Except String Settings × List Record :=
  let present (candidate : String) := (files.read? candidate).isSome
  let (found, records) := match path.or ((defaultPaths home).find? present) with
    | some file => (ofFile files file, [])
    | none => (.ok {}, [noFile])
  let checked := do
    let s ← (← found).override env
    match s.problem? with
    | some problem => .error problem
    | none => return s
  (checked, records)

end Settings

end Runbook
