import SchemaLedger.Command.Arguments
import SchemaLedger.Command.Basic
import SchemaLedger.Command.Inspect
import SchemaLedger.Draft.Basic
import SchemaLedger.Draft.IdSelection
import SchemaLedger.Draft.Markup
import SchemaLedger.Draft.Plan
import SchemaLedger.Error.Basic
import SchemaLedger.Error.Check
import SchemaLedger.Error.Tag
import SchemaLedger.Error.Violation
import SchemaLedger.File.Basic
import SchemaLedger.File.Handle
import SchemaLedger.File.Run
import SchemaLedger.Ident.Keystream
import SchemaLedger.Ident.Pair
import SchemaLedger.Ident.Source
import SchemaLedger.Json.Basic
import SchemaLedger.Json.Mismatch
import SchemaLedger.Json.Printer
import SchemaLedger.Json.Reader
import SchemaLedger.Json.Record
import SchemaLedger.Main
import SchemaLedger.Merge.Basic
import SchemaLedger.Merge.Matching
import SchemaLedger.Merge.Notice
import SchemaLedger.Merge.Properties
import SchemaLedger.Merge.Relations
import SchemaLedger.Model.Basic
import SchemaLedger.Model.Census
import SchemaLedger.Model.Consistency
import SchemaLedger.Model.Document
import SchemaLedger.Model.Flags
import SchemaLedger.Model.Graph
import SchemaLedger.Model.Kind
import SchemaLedger.Model.NodeTable
import SchemaLedger.Model.Store
import SchemaLedger.Model.VectorIndex
import SchemaLedger.Model.View
import SchemaLedger.Numeral.Binary
import SchemaLedger.Numeral.Single
import SchemaLedger.Numeral.Unsigned
import SchemaLedger.Proofs.Draft.Attributes
import SchemaLedger.Proofs.Draft.Declaration
import SchemaLedger.Proofs.Draft.Marks
import SchemaLedger.Proofs.Draft.Omission
import SchemaLedger.Proofs.Draft.Plan
import SchemaLedger.Proofs.Draft.Relations
import SchemaLedger.Proofs.Draft.Requests
import SchemaLedger.Proofs.Error.Chains
import SchemaLedger.Proofs.Json.RoundTrip
import SchemaLedger.Proofs.Merge.Attributes
import SchemaLedger.Proofs.Merge.Claiming
import SchemaLedger.Proofs.Merge.Conformance
import SchemaLedger.Proofs.Merge.Contents
import SchemaLedger.Proofs.Merge.Cycles
import SchemaLedger.Proofs.Merge.Draws
import SchemaLedger.Proofs.Merge.EntityOutcomes
import SchemaLedger.Proofs.Merge.Faults
import SchemaLedger.Proofs.Merge.Idempotence
import SchemaLedger.Proofs.Merge.Identity
import SchemaLedger.Proofs.Merge.Numbering
import SchemaLedger.Proofs.Merge.Ordinary
import SchemaLedger.Proofs.Merge.Outcome
import SchemaLedger.Proofs.Merge.PropertyOutcomes
import SchemaLedger.Proofs.Merge.PropertySteps
import SchemaLedger.Proofs.Merge.RelationOutcomes
import SchemaLedger.Proofs.Merge.Retirement
import SchemaLedger.Proofs.Merge.Traversal
import SchemaLedger.Proofs.Merge.Turns
import SchemaLedger.Proofs.Merge.Uniqueness
import SchemaLedger.Proofs.Model.Acyclic
import SchemaLedger.Proofs.Model.Characterization
import SchemaLedger.Proofs.Model.Collisions
import SchemaLedger.Proofs.Model.Flags
import SchemaLedger.Proofs.Model.Lossless
import SchemaLedger.Proofs.Model.Persistence
import SchemaLedger.Proofs.Model.Soundness
import SchemaLedger.Proofs.Numeral.Digits
import SchemaLedger.Proofs.Run.History
import SchemaLedger.Proofs.Run.Phases
import SchemaLedger.Proofs.Run.Repetition
import SchemaLedger.Proofs.Run.Soundness
import SchemaLedger.Proofs.Run.Succession
import SchemaLedger.Proofs.Store.Evolution
import SchemaLedger.Proofs.Store.Failure
import SchemaLedger.Proofs.Store.Growth
import SchemaLedger.Proofs.Store.Numbering
import SchemaLedger.Proofs.Store.Revision
import SchemaLedger.Proofs.Store.Site
import SchemaLedger.Proofs.Store.Turnover
import SchemaLedger.Schema.Document
import SchemaLedger.Tag.Basic
import SchemaLedger.Tag.KeyMap
import SchemaLedger.Tag.Printer
import SchemaLedger.Tag.Reader
import SchemaLedger.Tag.Token
import SchemaLedger.Text.Blank
import SchemaLedger.Text.Case
import SchemaLedger.Text.Casing
import SchemaLedger.Text.Combining
import SchemaLedger.Text.Fields
import SchemaLedger.Text.Lowercase
import SchemaLedger.Text.Quoted
import SchemaLedger.Text.Ranges
import SchemaLedger.Text.Unassigned
import SchemaLedger.Proofs.Tag.Items
import SchemaLedger.Proofs.Tag.Spelling
import SchemaLedger.Proofs.Tag.Collection
import SchemaLedger.Proofs.Tag.Meaning
import SchemaLedger.Proofs.Tag.Accumulation
import SchemaLedger.Proofs.Tag.Printing
import SchemaLedger.Proofs.Model.Guarantees
import SchemaLedger.Proofs.Store.Calls
import SchemaLedger.Proofs.Store.Accounts
import SchemaLedger.Proofs.Store.Forgetting
import SchemaLedger.Proofs.Merge.Forgetting
import SchemaLedger.Proofs.Merge.Reloading
import SchemaLedger.Proofs.Run.Failures
import SchemaLedger.Proofs.Merge.Binding
import SchemaLedger.Proofs.Model.CycleSearch
import SchemaLedger.Proofs.Store.Renaming
import SchemaLedger.Proofs.Store.Copies
import SchemaLedger.Proofs.Merge.Renaming
import SchemaLedger.Proofs.Merge.Copies
import SchemaLedger.Proofs.Merge.Seeds
import SchemaLedger.Proofs.Merge.Report
import SchemaLedger.Proofs.Merge.Silence
import SchemaLedger.Proofs.Merge.Diagnosis
import SchemaLedger.Proofs.Merge.Requests
import SchemaLedger.Proofs.Store.Candidates
import SchemaLedger.Proofs.Numeral.Grammar
import SchemaLedger.Proofs.Ident.Grammar
import SchemaLedger.Proofs.Draft.IdSelection
import SchemaLedger.Proofs.Tag.Slices
import SchemaLedger.Proofs.Tag.Scanner
import SchemaLedger.Proofs.Tag.Faults
import SchemaLedger.Proofs.Tag.Relocation
