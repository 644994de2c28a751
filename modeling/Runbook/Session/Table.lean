import Runbook.Agent.Parsed
import Runbook.Session.Proceed

/-!
This module contains the table of all debug sessions that are under way, with one operation for
everything that can be asked of a session. An operation on a session that is not in the table is
refused; one that is refused changes no session.
-/

namespace Runbook

/-- The debug sessions of an engine. -/
structure Sessions where
  engine : Engine
  journal : Journal := {}
  /-- The sessions, the oldest first. -/
  live : List Session := []
  /-- The number of sessions that were ever started. -/
  started : Nat := 0
  /-- The clock, in milliseconds, that tells how long sessions have been left alone. -/
  idleClock : Nat := 0

namespace Sessions

def write (t : Sessions) (record : Record) : Sessions :=
  { t with journal := t.journal.write record }

def find? (t : Sessions) (id : SessionId) : Option Session :=
  t.live.find? (·.id = id)

/-- Puts a session in the place of the one with the same id. -/
def replace (t : Sessions) (session : Session) : Sessions :=
  { t with live := t.live.map fun s => if s.id = session.id then session else s }

def erase (t : Sessions) (id : SessionId) : Sessions :=
  { t with live := t.live.filter (·.id ≠ id) }

def ids (t : Sessions) : List SessionId :=
  t.live.map (·.id)

def size (t : Sessions) : Nat :=
  t.live.length

/-- Works on a session, which counts as use of it. -/
def use {α : Type} (t : Sessions) (id : SessionId)
    (work : Session → Journal → Except SessionError α × Session × Journal)
    : Except SessionError α × Sessions :=
  match t.find? id with
  | none => (.error (.notFound id.text), t)
  | some session =>
    let (reply, session, journal) := work { session with lastUsed := t.idleClock } t.journal
    (reply, { t with journal }.replace session)

/-- Opens a session over an agent. Nothing runs yet. -/
def startAgent (t : Sessions) (agent : Agent) (input : Json)
    : Except SessionError SessionId × Sessions :=
  let (seeded, notes) := t.engine.seed agent input
  let order := t.journal.order
  let t := { t with journal := t.journal.pastOrder.writeAll notes }
  match seeded with
  | .error error => (.error (.execution error), t)
  | .ok bindings =>
    let session : Session :=
      { id := ⟨t.started⟩
        agent
        bindings := bindings.inOrder order
        trace := (Trace.new t.engine.settings.traceCapacity).push
          ⟨.started agent.id agent.version, t.journal.now⟩
        lastUsed := t.idleClock }
    (.ok session.id,
      { t with live := t.live ++ [session], started := t.started + 1 }.write
        (.info "session started" [session.field, ("agent", LogText.safe agent.id)]))

/-- Opens a session over the agent of a source text. -/
def start (t : Sessions) (source : String) (input : Json)
    : Except SessionError SessionId × Sessions :=
  let parsed := Agent.parse source
  let t := t.write parsed.record
  match parsed.valid? with
  | .error report => (.error (.invalidSource report), t)
  | .ok agent => t.startAgent agent input

@[inherit_doc Session.setBreakpoint]
def setBreakpoint (t : Sessions) (id : SessionId) (step : String)
    : Except SessionError Unit × Sessions :=
  t.use id fun session j => session.setBreakpoint step j

@[inherit_doc Session.clearBreakpoint]
def clearBreakpoint (t : Sessions) (id : SessionId) (step : String)
    : Except SessionError Bool × Sessions :=
  t.use id fun session j =>
    let (was, session) := session.clearBreakpoint step
    (.ok was, session, j)

@[inherit_doc Session.setVariable]
def setVariable (t : Sessions) (id : SessionId) (name : String) (value : Json)
    : Except SessionError Unit × Sessions :=
  t.use id fun session j => session.setVariable name value j

def proceed (t : Sessions) (id : SessionId) : Except SessionError SessionView × Sessions :=
  t.use id fun session j =>
    let (reply, session, j) := session.proceed t.engine j
    (reply.map fun _ => session.view, session, j)

def view (t : Sessions) (id : SessionId) : Except SessionError SessionView × Sessions :=
  t.use id fun session j => (.ok session.view, session, j)

def trace (t : Sessions) (id : SessionId) : Except SessionError Trace × Sessions :=
  t.use id fun session j => (.ok session.trace, session, j)

def stop (t : Sessions) (id : SessionId) : Except SessionError SessionView × Sessions :=
  match t.find? id with
  | none => (.error (.notFound id.text), t)
  | some session =>
    let (session, journal) := session.stop t.journal
    (.ok session.view, { t with journal }.erase id)

def stopEach : List Session → Journal → List SessionView × Journal
  | [], j => ([], j)
  | session :: rest, j =>
    let (session, j) := session.stop j
    let (views, j) := stopEach rest j
    (session.view :: views, j)

def stopAll (t : Sessions) : List SessionView × Sessions :=
  let (views, journal) := stopEach t.live t.journal
  let t := { t with journal, live := [] }
  if views.isEmpty then
    (views, t)
  else
    (views, t.write (.info "stopped all sessions" [("stopped", Record.number views.length)]))

end Sessions

end Runbook
