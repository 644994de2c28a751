import Runbook.Text.Blank

/-!
This module contains the problems found in a source text, values accompanied by such problems, and
the report that collects them: errors and warnings apart, each in the order of their positions.
-/

namespace Runbook

inductive Severity where
  | error
  | warning
  deriving DecidableEq, Repr

/-- A problem at a line and a column, both counted from one. -/
structure Diagnostic where
  severity : Severity
  line : Nat
  column : Nat
  message : String
  /-- The line it was found on, without the blanks at its ends. -/
  context : Option String := none
  suggestion : Option String := none
  deriving DecidableEq, Repr

namespace Diagnostic

/-- An error; positions before the first one count as the first. -/
def error (line column : Nat) (message : String) : Diagnostic :=
  { severity := .error, line := max 1 line, column := max 1 column, message }

/-- A warning; positions before the first one count as the first. -/
def warning (line column : Nat) (message : String) : Diagnostic :=
  { severity := .warning, line := max 1 line, column := max 1 column, message }

/-- Shows a source line with the problem, unless the line is blank. -/
def withContext (d : Diagnostic) (line : String) : Diagnostic :=
  match Text.trim line.toList with
  | [] => d
  | kept => { d with context := some (String.ofList kept) }

def withSuggestion (d : Diagnostic) (suggestion : String) : Diagnostic :=
  { d with suggestion := some suggestion }

/-- The problem as it is shown to a reader, on one to three lines. -/
def text (d : Diagnostic) : String :=
  let label := match d.severity with
    | .error => "error"
    | .warning => "warning"
  let head := s!"{label} at line {d.line}, column {d.column}: {d.message}"
  let context := match d.context with
    | some line => "\n  | " ++ line
    | none => ""
  let suggestion := match d.suggestion with
    | some hint => "\n  = help: " ++ hint
    | none => ""
  head ++ context ++ suggestion

/-- Whether a problem stands before another one or at the same position. -/
def notAfter (a b : Diagnostic) : Bool :=
  a.line < b.line || (a.line == b.line && a.column ≤ b.column)

end Diagnostic

/-- A value together with the problems met on the way to it, in the order they were met. -/
structure Noted (α : Type) where
  value : α
  notes : List Diagnostic := []

namespace Noted

def note (d : Diagnostic) : Noted Unit :=
  ⟨(), [d]⟩

/-- Several problems at once. -/
def noteAll (ds : List Diagnostic) : Noted Unit :=
  ⟨(), ds⟩

instance : Monad Noted where
  pure a := ⟨a, []⟩
  bind a f := ⟨(f a.value).value, a.notes ++ (f a.value).notes⟩

@[simp]
theorem pure_value {α : Type} (a : α) : (pure a : Noted α).value = a := rfl

@[simp]
theorem pure_notes {α : Type} (a : α) : (pure a : Noted α).notes = [] := rfl

@[simp]
theorem bind_value {α β : Type} (a : Noted α) (f : α → Noted β)
    : (a >>= f).value = (f a.value).value := rfl

@[simp]
theorem bind_notes {α β : Type} (a : Noted α) (f : α → Noted β)
    : (a >>= f).notes = a.notes ++ (f a.value).notes := rfl

/-- The values and problems of a list, one member after another. -/
def mapAll {α β : Type} (f : α → Noted β) (xs : List α) : Noted (List β) :=
  ⟨xs.map fun x => (f x).value, xs.flatMap fun x => (f x).notes⟩

end Noted

/-- The problems of a source text. -/
structure Report where
  errors : List Diagnostic := []
  warnings : List Diagnostic := []
  deriving DecidableEq

namespace Report

def valid (r : Report) : Bool :=
  r.errors.isEmpty

/-- Files every problem under its severity, in the given order. -/
def ofList (ds : List Diagnostic) : Report where
  errors := ds.filter fun d => d.severity = .error
  warnings := ds.filter fun d => d.severity = .warning

/-- Both lists by position; problems at one position keep their order. -/
def sorted (r : Report) : Report where
  errors := r.errors.mergeSort Diagnostic.notAfter
  warnings := r.warnings.mergeSort Diagnostic.notAfter

end Report

end Runbook
