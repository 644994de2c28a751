import Runbook.Session.Table

/-!
This module contains the removal of debug sessions that nobody has worked on for some time. A
session that is running a step is never removed.
-/

namespace Runbook

namespace Sessions

/-- Lets time pass in which nobody works on a session. -/
def rest (t : Sessions) (millis : Nat) : Sessions :=
  { t with idleClock := t.idleClock + millis }

/-- Whether a session was left alone for longer than a limit in milliseconds. -/
def isIdle (t : Sessions) (limit : Nat) (session : Session) : Bool :=
  decide (limit < t.idleClock - session.lastUsed)

def removal (session : Session) : Record :=
  .debug "reaping idle session" [session.field, ("status", session.status.name)]

/--
Removes the sessions that were left alone for longer than a limit, except for the busy ones. Answers
with the number of removed sessions.
-/
def sweep (t : Sessions) (limit : Nat) (busy : SessionId → Bool) : Nat × Sessions :=
  let (gone, kept) := t.live.partition fun session => t.isIdle limit session && !busy session.id
  (gone.length,
    { t with live := kept, journal := t.journal.writeAll (gone.map removal) })

/-- A sweep by the settings of the engine. -/
def reap (t : Sessions) : Sessions :=
  let (gone, t) := t.sweep (1000 * t.engine.settings.sessionIdleSeconds) fun _ => false
  if 0 < gone then
    t.write (.info "reaped idle sessions"
      [("reaped", Record.number gone), ("remaining", Record.number t.size)])
  else
    t

/--
Waits while sweeps are made at intervals of at least a millisecond. The sessions do not grow older
from one sweep to the next, so that all sweeps together do what the first one does, and there is
none if the wait is over before the first interval is.
-/
def reapEvery (t : Sessions) (interval wait : Nat) : Sessions :=
  let swept := if max 1 interval < wait then t.reap else t
  { swept with journal := swept.journal.elapse wait }

/-- What is known after a sweep during the run of a session. -/
structure Swept where
  /-- The reply to the request to run on. -/
  reply : Except SessionError SessionView
  removed : Nat
  /-- The number of sessions right after the sweep. -/
  left : Nat

/--
Runs a session on and makes a sweep some time after its start. The session is busy if it is still
running then. In the log, the sweep stands where its time is.
-/
def proceedDuringSweep (t : Sessions) (id : SessionId) (after limit : Nat) : Swept × Sessions :=
  let start := t.journal.clock
  let (reply, ran) := t.proceed id
  let finish := ran.journal.clock
  let busy := decide (start < finish ∧ start + after ≤ finish)
  let isBefore : Nat × Record → Bool := fun (time, _) => !busy || decide (time < start + after)
  let news := ran.journal.records.drop t.journal.records.length
  let early : Journal :=
    { ran.journal with
      clock := start + after
      records := t.journal.records ++ news.takeWhile isBefore }
  let (removed, swept) :=
    ({ ran with journal := early }.rest 1).sweep limit fun other => busy && other = id
  let late : Journal :=
    { swept.journal with
      clock := max finish (start + after)
      records := swept.journal.records ++ news.dropWhile isBefore }
  (⟨reply, removed, swept.size⟩, { swept with journal := late })

end Sessions

end Runbook
