import Runbook.Bindings
import Runbook.Capability
import Runbook.Moment

/-!
This module contains what a run leaves behind outside of its own state: the time that has passed,
the calls of capabilities, the log, and what chance has still to give.
-/

namespace Runbook

/-- A call of a capability. -/
structure Call where
  backend : Nat
  request : Request

/-- The time in milliseconds, and all calls and log records so far, each with its time. -/
structure Journal where
  clock : Nat := 0
  calls : List Call := []
  records : List (Nat × Record) := []
  /-- The orders of the tables of bindings that are still to be made. -/
  orders : Nat → SecretOrder := fun _ => .bound

namespace Journal

def now (j : Journal) : Moment :=
  ⟨j.clock⟩

def elapse (j : Journal) (millis : Nat) : Journal :=
  { j with clock := j.clock + millis }

def write (j : Journal) (record : Record) : Journal :=
  { j with records := j.records ++ [(j.clock, record)] }

def writeAll (j : Journal) (records : List Record) : Journal :=
  { j with records := j.records ++ records.map fun record => (j.clock, record) }

def earlierCalls (j : Journal) (backend : Nat) : Nat :=
  j.calls.countP (·.backend = backend)

/-- Calls a capability. The time it takes is left for the caller to spend. -/
def invoke (j : Journal) (backend : Backend) (request : Request) : Answer × Journal :=
  (backend.capability (j.earlierCalls backend.number) request,
    { j with calls := j.calls ++ [⟨backend.number, request⟩] })

/-- The order of the next table of bindings. -/
def order (j : Journal) : SecretOrder :=
  j.orders 0

/-- What is left to chance once a table of bindings was made. -/
def pastOrder (j : Journal) : Journal :=
  { j with orders := fun n => j.orders (n + 1) }

end Journal

end Runbook
