import Runbook.Json
import Runbook.Moment

/-!
This module contains the trace of a run: what happened, in order, with a bound on the number of
events that are kept. When the bound is reached the oldest event makes room for the newest.
-/

namespace Runbook

/-- Something that happens in a run or in a debug session. Durations are in milliseconds. -/
inductive Happening where
  | started (agent version : String)
  | stepSkipped (step condition : String)
  /-- The condition is `true` if the step has a guard. -/
  | stepCompleted (step : String) (condition : Option Bool) (attempts duration : Nat)
      (savedAs : Option String)
  | stepFailed (step : String) (attempts duration : Nat) (error : String)
  /-- A pause before a step, or after the last one. -/
  | paused (step : Option String)
  | resumed
  | variableSet (name : String)
  | finished (success : Bool) (duration : Nat)
  | stopped
  deriving DecidableEq

namespace Happening

def step? : Happening → Option String
  | stepSkipped step _ => some step
  | stepCompleted step _ _ _ _ => some step
  | stepFailed step _ _ _ => some step
  | paused step => step
  | _ => none

def attemptsText (n : Nat) : String :=
  if n = 1 then "1 attempt" else s!"{n} attempts"

def text : Happening → String
  | started agent version => s!"started agent '{agent}' ({version})"
  | stepSkipped step condition => s!"step '{step}' skipped: \x60{condition}\x60 was false"
  | stepCompleted step condition attempts duration savedAs =>
    let head := s!"step '{step}' completed in {duration}ms ({attemptsText attempts})"
    let guard := if condition = some true then ", condition true" else ""
    let saved := match savedAs with
      | some name => " -> " ++ name
      | none => ""
    head ++ guard ++ saved
  | stepFailed step attempts duration error =>
    s!"step '{step}' failed after {duration}ms ({attemptsText attempts}): {error}"
  | paused (some step) => s!"paused before step '{step}'"
  | paused none => "paused at @end"
  | resumed => "resumed"
  | variableSet name => s!"variable '{name}' set"
  | finished success duration =>
    let how := if success then "successfully" else "with failure"
    s!"finished {how} in {duration}ms"
  | stopped => "stopped"

def optional : Option String → Json
  | some s => .str s
  | none => .null

/-- The name of a happening and what it tells, as members of an object. -/
def fields : Happening → Json.Fields
  | started agent version =>
    [("event", .str "started"), ("agent", .str agent), ("version", .str version)]
  | stepSkipped step condition =>
    [("event", .str "step_skipped"), ("step_id", .str step), ("condition", .str condition)]
  | stepCompleted step condition attempts duration savedAs =>
    [("event", .str "step_completed"), ("step_id", .str step),
      ("condition", match condition with | some b => .bool b | none => .null),
      ("attempts", .int attempts), ("duration_ms", .int duration), ("saved_as", optional savedAs)]
  | stepFailed step attempts duration error =>
    [("event", .str "step_failed"), ("step_id", .str step), ("attempts", .int attempts),
      ("duration_ms", .int duration), ("error", .str error)]
  | paused step => [("event", .str "paused"), ("step_id", optional step)]
  | resumed => [("event", .str "resumed")]
  | variableSet name => [("event", .str "variable_set"), ("name", .str name)]
  | finished success duration =>
    [("event", .str "finished"), ("success", .bool success), ("duration_ms", .int duration)]
  | stopped => [("event", .str "stopped")]

end Happening

/-- Something that happened at some time. -/
structure Event where
  what : Happening
  time : Moment
  deriving DecidableEq

namespace Event

def line (e : Event) : String :=
  s!"[{e.time.clockText}] " ++ e.what.text

def toJson (e : Event) : Json :=
  .obj (e.what.fields ++ [("at", .str e.time.text)])

end Event

/-- The newest events of a run. -/
structure Trace where
  events : List Event := []
  capacity : Nat := 1000
  /-- The number of events that made room for newer ones. -/
  dropped : Nat := 0
  deriving DecidableEq

namespace Trace

/-- An empty trace that keeps up to a number of events, and one at least. -/
def new (capacity : Nat) : Trace :=
  { capacity := max 1 capacity }

/-- Adds an event; a full trace drops its oldest one. -/
def push (trace : Trace) (event : Event) : Trace :=
  if trace.capacity ≤ trace.events.length then
    { trace with events := trace.events.drop 1 ++ [event], dropped := trace.dropped + 1 }
  else
    { trace with events := trace.events ++ [event] }

def droppedNote (trace : Trace) : List String :=
  if 0 < trace.dropped then [s!"... {trace.dropped} earlier event(s) dropped"] else []

/-- The trace in words, the oldest event first. -/
def lines (trace : Trace) : List String :=
  trace.droppedNote ++ trace.events.map Event.line

def toJson (trace : Trace) : Json :=
  .obj [("events", .arr (trace.events.map Event.toJson)), ("max_events", .int trace.capacity),
    ("dropped", .int trace.dropped)]

end Trace

end Runbook
