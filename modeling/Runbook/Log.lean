import Runbook.LogText

/-!
This module contains the records of a log: events with a level, and spans, which stand for a piece
of work and learn some of their fields only when it ends.
-/

namespace Runbook

inductive Level where
  | debug
  | info
  | warn
  deriving DecidableEq, Repr

def Level.name : Level → String
  | debug => "DEBUG"
  | info => "INFO"
  | warn => "WARN"

abbrev LogField := String × String

/-- A record of a log. -/
inductive Record where
  | event (level : Level) (message : String) (fields : List LogField)
  /-- A piece of work begins. -/
  | span (name : String) (fields : List LogField)
  /-- A span learns a field. -/
  | learned (span : String) (field : LogField)
  deriving DecidableEq

namespace Record

def fields : Record → List LogField
  | event _ _ fields => fields
  | span _ fields => fields
  | learned _ field => [field]

def debug (message : String) (fields : List LogField) : Record :=
  .event .debug message fields

def info (message : String) (fields : List LogField) : Record :=
  .event .info message fields

def warn (message : String) (fields : List LogField) : Record :=
  .event .warn message fields

def number (n : Nat) : String :=
  toString n

def flag (b : Bool) : String :=
  if b then "true" else "false"

end Record

end Runbook
