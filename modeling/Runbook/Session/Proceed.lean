import Runbook.Session.Basic

/-!
This module contains the running of a debug session up to the next breakpoint, the end, or a failure
that ends the run. A breakpoint pauses before its step, once: when the session goes on, the step it
paused before runs first.
-/

namespace Runbook

namespace Session

/-- What a run of steps stops at. -/
inductive Halt where
  | breakpoint (step : String)
  | failure (error : ExecutionError)
  /-- There is no step left. -/
  | finished

def runState (session : Session) (journal : Journal) : RunState :=
  ⟨session.bindings, session.trace, journal⟩

def adopt (session : Session) (s : RunState) : Session :=
  { session with bindings := s.bindings, trace := s.trace }

/-- A session that has one more step behind it. -/
def pass (session : Session) (step : Agent.Step) (outcome : Option StepOutcome) : Session :=
  { session with
    lastSaved := (Progress.add ⟨session.lastSaved, 0, false⟩ step outcome).lastSaved
    cursor := session.cursor + 1 }

/--
Runs the steps that are left until one of them stops the run. The first one runs even if it has a
breakpoint, if the session was paused there.
-/
def runSteps (engine : Engine) (paused : Bool)
    : List Agent.Step → Session → Journal → Halt × Session × Journal
  | [], session, j => (.finished, session, j)
  | step :: rest, session, j =>
    if !paused && session.breakpoints.contains step.id then
      (.breakpoint step.id, session, j)
    else
      match engine.advance [session.field] step (session.runState j) with
      | (.ok outcome, s) =>
        runSteps engine false rest ((session.adopt s).pass step outcome) s.journal
      | (.error error, s) => (.failure error, session.adopt s, s.journal)

def pause (session : Session) (step : Option String) (next : SessionStatus) (j : Journal)
    : Session × Journal :=
  (session.note (.paused step) j.now).moveTo next j

def fail (session : Session) (start : Nat) (error : ExecutionError) (j : Journal)
    : Session × Journal :=
  ({ session with error := some (session.bindings.maskText error.message) }.note
    (.finished false (j.clock - start)) j.now).moveTo .failed j

def complete (engine : Engine) (session : Session) (start : Nat) (j : Journal)
    : Session × Journal :=
  let result := engine.outputs session.agent session.bindings session.lastSaved
  ({ session with result := some result }.note (.finished true (j.clock - start)) j.now).moveTo
    .completed j

/-- Begins to run, or goes on after a pause. -/
def begin (session : Session) (j : Journal) : Session × Journal :=
  let session := if session.status = .ready then session else session.note .resumed j.now
  session.moveTo .running j

/-- Runs a session up to the next breakpoint, the end, or a failure that ends the run. -/
def proceed (engine : Engine) (session : Session) (j : Journal)
    : Except SessionError Unit × Session × Journal :=
  if session.status.canProceed then
    let atEnd := session.status = .pausedAtEnd
    let paused := decide (session.status = .pausedAtBreakpoint)
    let start := j.clock
    let (session, j) := session.begin j
    match runSteps engine paused session.remaining session j with
    | (.breakpoint step, session, j) =>
      (.ok (), session.pause (some step) .pausedAtBreakpoint j)
    | (.failure error, session, j) =>
      (.error (.execution error), session.fail start error j)
    | (.finished, session, j) =>
      if ¬ atEnd ∧ session.breakpoints.contains endBreakpoint then
        (.ok (), session.pause none .pausedAtEnd j)
      else
        (.ok (), session.complete engine start j)
  else
    (.error (.invalidState "continue" session.status.name), session, j)

end Session

end Runbook
