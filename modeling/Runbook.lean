import Runbook.Text.Alphanumeric
import Runbook.Text.Cased
import Runbook.Text.Lowercase
import Runbook.Text.Blank
import Runbook.Text.Cut
import Runbook.Text.Digits
import Runbook.Decimal
import Runbook.Binary64
import Runbook.Binary64.Shortest
import Runbook.Json
import Runbook.Diagnostic
import Runbook.Source.Scalar
import Runbook.Source.Comment
import Runbook.Source.Value
import Runbook.Source.Line
import Runbook.Source.Tree
import Runbook.Template
import Runbook.Agent.Suggestion
import Runbook.Agent.Definition
import Runbook.Agent.Steps
import Runbook.Agent.Sections
import Runbook.Agent.Checks
import Runbook.Agent.Parsed
import Runbook.Guard
import Runbook.Credential
import Runbook.Masking
import Runbook.LogText
import Runbook.Moment
import Runbook.Trace
import Runbook.Failure
import Runbook.Bindings
import Runbook.Secret
import Runbook.Log
import Runbook.Capability
import Runbook.Journal
import Runbook.Retry
import Runbook.Toml.Scalar
import Runbook.Toml.Document
import Runbook.Files
import Runbook.Settings
import Runbook.Run.Engine
import Runbook.Run.Seed
import Runbook.Run.Step
import Runbook.Run.Execution
import Runbook.Session.Id
import Runbook.Session.Status
import Runbook.Session.Basic
import Runbook.Session.Proceed
import Runbook.Session.Table
import Runbook.Session.Idle
import Runbook.Proofs.Json
import Runbook.Proofs.Errors
import Runbook.Proofs.Position
import Runbook.Proofs.Source.Slot
import Runbook.Proofs.Source.Passage
import Runbook.Proofs.Source.Words
import Runbook.Proofs.Source.Comment
import Runbook.Proofs.Source.Atom
import Runbook.Proofs.Source.Row
import Runbook.Proofs.Source.Block
import Runbook.Proofs.Source.Header
import Runbook.Proofs.Source.Document
import Runbook.Proofs.Source.Build
import Runbook.Proofs.Source.Notation
import Runbook.Proofs.Source.Offence
import Runbook.Proofs.Source.Numbering
import Runbook.Proofs.Source.Insertion
import Runbook.Proofs.Source.Bracket
import Runbook.Proofs.Source.Order
import Runbook.Proofs.Source.Coverage
import Runbook.Proofs.Source.Position
import Runbook.Proofs.Agent.Parsed
import Runbook.Proofs.Agent.Checks
import Runbook.Proofs.Agent.Ending
import Runbook.Proofs.Agent.Sound
import Runbook.Proofs.Agent.Field
import Runbook.Proofs.Agent.Section
import Runbook.Proofs.Agent.Listing
import Runbook.Proofs.Agent.Mixture
import Runbook.Proofs.Agent.StepBlock
import Runbook.Proofs.Agent.Position
import Runbook.Proofs.Agent.Report
import Runbook.Proofs.Agent.Suggestion
import Runbook.Proofs.Template.Placeholder
import Runbook.Proofs.Template.Division
import Runbook.Proofs.Template.Reading
import Runbook.Proofs.Decimal
import Runbook.Proofs.Binary64
import Runbook.Proofs.Guard.Scan
import Runbook.Proofs.Guard.Operand
import Runbook.Proofs.Guard.Connective
import Runbook.Proofs.Guard.Comparison
import Runbook.Proofs.Guard.Number
import Runbook.Proofs.Replacement
import Runbook.Proofs.Masking.Occurrence
import Runbook.Proofs.Masking
import Runbook.Proofs.Masking.Order
import Runbook.Proofs.Bindings
import Runbook.Proofs.Credential.Piece
import Runbook.Proofs.Credential.Find
import Runbook.Proofs.Credential.Settled
import Runbook.Proofs.LogText
import Runbook.Proofs.Credential.Escape
import Runbook.Proofs.Trace
import Runbook.Proofs.Retry
import Runbook.Proofs.Capability
import Runbook.Proofs.Run.Compare
import Runbook.Proofs.Run.Step
import Runbook.Proofs.Run.Alike
import Runbook.Proofs.Run.Seed
import Runbook.Proofs.Run.Precedence
import Runbook.Proofs.Run.Execution
import Runbook.Proofs.Run.Effect
import Runbook.Proofs.Run.Calls
import Runbook.Proofs.Run.Account
import Runbook.Proofs.Run.Reordered
import Runbook.Proofs.Run.Ending
import Runbook.Proofs.Run.Outlived
import Runbook.Proofs.Run.Unread
import Runbook.Proofs.Run.Log
import Runbook.Proofs.Session.Operation
import Runbook.Proofs.Session.Reach
import Runbook.Proofs.Session.Lockstep
import Runbook.Proofs.Session.Breakpoint
import Runbook.Proofs.Session.History
import Runbook.Proofs.Session.Secrecy
import Runbook.Proofs.Session.Lifecycle
import Runbook.Proofs.Session.Announcement
import Runbook.Proofs.Session.Refusal
import Runbook.Proofs.Source.Nesting
import Runbook.Proofs.Agent.Config
import Runbook.Proofs.Agent.TimeLimit
import Runbook.Proofs.Source.Renumbering
import Runbook.Proofs.Agent.Renumbering
import Runbook.Proofs.Agent.EitherNotation
