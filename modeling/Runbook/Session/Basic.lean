import Runbook.Run.Execution
import Runbook.Session.Id
import Runbook.Session.Status

/-!
This module contains debug sessions: the execution of an agent that can be paused before a step,
looked at, changed, and continued. What others get to see of a session has its secrets hidden.
-/

namespace Runbook

/-- An execution that can be paused. -/
structure Session where
  id : SessionId
  agent : Agent
  bindings : Bindings
  trace : Trace
  /-- The steps to pause before, in the order of their texts and without repetition. -/
  breakpoints : List String := []
  /-- The number of steps that are done. -/
  cursor : Nat := 0
  status : SessionStatus := .ready
  lastSaved : Option Json := none
  /-- The outputs, once the session has completed. -/
  result : Option Json := none
  /-- The error, once the session has failed. -/
  error : Option String := none
  /-- The last time that somebody worked on the session. -/
  lastUsed : Nat := 0

/-- What others get to see of a session. -/
structure SessionView where
  id : SessionId
  agent : String
  version : String
  status : SessionStatus
  cursor : Nat
  nextStep : Option String
  breakpoints : List String
  bindings : Json.Fields
  result : Option Json
  error : Option String

namespace Session

/-- The breakpoint after the last step. -/
def endBreakpoint : String :=
  "@end"

/-- Puts a text into its place in an ordered list, unless the list has it. -/
def insertOrdered (text : String) : List String → List String
  | [] => [text]
  | t :: ts =>
    if text = t then t :: ts
    else if text < t then text :: t :: ts
    else t :: insertOrdered text ts

def remaining (session : Session) : List Agent.Step :=
  session.agent.steps.drop session.cursor

def view (session : Session) : SessionView where
  id := session.id
  agent := session.agent.id
  version := session.agent.version
  status := session.status
  cursor := session.cursor
  nextStep := session.remaining.head?.map (·.id)
  breakpoints := session.breakpoints
  bindings := session.bindings.masked
  result := session.result.map (Masking.maskJson session.bindings.secretValues)
  error := session.error

def note (session : Session) (what : Happening) (time : Moment) : Session :=
  { session with trace := session.trace.push ⟨what, time⟩ }

/-- The field that tells the records of sessions apart. -/
def field (session : Session) : LogField :=
  ("session", session.id.text)

def transition (session : Session) (next : SessionStatus) : Record :=
  .info "Session state transition"
    [session.field, ("from", session.status.name), ("to", next.name)]

def moveTo (session : Session) (next : SessionStatus) (j : Journal) : Session × Journal :=
  ({ session with status := next }, j.write (session.transition next))

/-- Pauses the session before a step of its agent, or at the end. -/
def setBreakpoint (session : Session) (step : String) (j : Journal)
    : Except SessionError Unit × Session × Journal :=
  if step ≠ endBreakpoint ∧ (session.agent.findStep step).isNone then
    (.error (.unknownStep session.agent.id step), session, j)
  else
    (.ok (), { session with breakpoints := insertOrdered step session.breakpoints },
      j.write (.debug "breakpoint set" [session.field, ("step_id", LogText.safe step)]))

/-- Removes a breakpoint, and tells whether it was there. -/
def clearBreakpoint (session : Session) (step : String) : Bool × Session :=
  (session.breakpoints.contains step,
    { session with breakpoints := session.breakpoints.filter (· ≠ step) })

/-- The bindings with a name bound anew; a secret stays one. -/
def bind (bindings : Bindings) (name : String) (value : Json) : Bindings :=
  if bindings.isSecret name then
    bindings.setSecret name (String.ofList (Template.valueText value))
  else
    bindings.set name value

/-- Binds a name, for the steps that are still to run. -/
def setVariable (session : Session) (name : String) (value : Json) (j : Journal)
    : Except SessionError Unit × Session × Journal :=
  if session.status.isTerminal then
    (.error (.invalidState "set a variable" session.status.name), session, j)
  else
    (.ok (),
      { session with bindings := bind session.bindings name value }.note (.variableSet name) j.now,
      j.write (.debug "variable set" [session.field, ("name", LogText.safe name)]))

def stop (session : Session) (j : Journal) : Session × Journal :=
  (session.note .stopped j.now).moveTo .stopped j

end Session

end Runbook
