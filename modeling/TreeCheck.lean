import TreeCheck.Analysis.Analyzer
import TreeCheck.Analysis.Expressions
import TreeCheck.Analysis.Finding
import TreeCheck.Analysis.State
import TreeCheck.Analysis.Statements
import TreeCheck.CommandLine.Help
import TreeCheck.CommandLine.Options
import TreeCheck.CommandLine.Run
import TreeCheck.CommandLine.Similarity
import TreeCheck.Diagnostic
import TreeCheck.Directory
import TreeCheck.Document.Decode
import TreeCheck.Document.DecodeError
import TreeCheck.Document.Kind
import TreeCheck.Document.Load
import TreeCheck.Document.Lower
import TreeCheck.Document.Node
import TreeCheck.Document.PositionText
import TreeCheck.Document.Root
import TreeCheck.Failure
import TreeCheck.Json.Cursor
import TreeCheck.Json.Reader
import TreeCheck.Json.Scalar
import TreeCheck.Json.Skip
import TreeCheck.Json.Value
import TreeCheck.Json.Writer
import TreeCheck.Main
import TreeCheck.Number.Binary64
import TreeCheck.Position
import TreeCheck.Proofs.Run.Coverage
import TreeCheck.Proofs.Run.Failure
import TreeCheck.Proofs.Run.Steps
import TreeCheck.Proofs.Run.Walk
import TreeCheck.Report.Human
import TreeCheck.Report.Machine
import TreeCheck.Report.Snippet
import TreeCheck.Report.Source
import TreeCheck.Scope.Symbol
import TreeCheck.Scope.Table
import TreeCheck.Session
import TreeCheck.Syntax.Builder
import TreeCheck.Syntax.Operator
import TreeCheck.Syntax.Outline
import TreeCheck.Syntax.Returns
import TreeCheck.Syntax.Tree
import TreeCheck.Text.CodePoint
import TreeCheck.Text.CodePoint.Printable
import TreeCheck.Text.CodePoint.Width
import TreeCheck.Text.ControlSequence
import TreeCheck.Text.Lines
import TreeCheck.Text.Quoted
import TreeCheck.Text.Utf8
import TreeCheck.Typing.Rules
import TreeCheck.Typing.Ty
import TreeCheck.Proofs.Account.Event
import TreeCheck.Proofs.Account.Expressions
import TreeCheck.Proofs.Run.Expressions
import TreeCheck.Proofs.Account.Statements
import TreeCheck.Proofs.Account.Course
import TreeCheck.Proofs.Scope.Order
import TreeCheck.Proofs.Account.Reads
import TreeCheck.Proofs.Run.Scopes
import TreeCheck.Proofs.Run.Statements
import TreeCheck.Proofs.Account.Distinct
import TreeCheck.Proofs.Scoping.Frames
import TreeCheck.Proofs.Account.Binding
import TreeCheck.Proofs.Scoping.Occurrences
import TreeCheck.Proofs.Scoping.Resolution
import TreeCheck.Proofs.Scoping.Numbering
import TreeCheck.Proofs.Scoping.Correctness
import TreeCheck.Proofs.Typing.FirstOrder
import TreeCheck.Proofs.Account.Clean
import TreeCheck.Proofs.Typing.Annotations
import TreeCheck.Proofs.Typing.Expressions
import TreeCheck.Proofs.Typing.Statements
import TreeCheck.Proofs.Typing.Scopes
import TreeCheck.Proofs.Typing.Correctness
import TreeCheck.Proofs.Gradual.Precision
import TreeCheck.Proofs.Gradual.Erasure
import TreeCheck.Proofs.Gradual.Expressions
import TreeCheck.Proofs.Gradual.Walks
import TreeCheck.Proofs.Gradual.Statements
import TreeCheck.Proofs.Gradual.Guarantee
import TreeCheck.Proofs.Visits.Nested
import TreeCheck.Proofs.Visits.Visit
import TreeCheck.Proofs.Visits.Remarks
import TreeCheck.Proofs.Visits.Plain
import TreeCheck.Proofs.Visits.Recorded
import TreeCheck.Proofs.Errors.Complaints
import TreeCheck.Proofs.Errors.Absorption
import TreeCheck.Proofs.Visits.Origins
import TreeCheck.Proofs.Visits.Lasting
import TreeCheck.Proofs.Typing.Storable
import TreeCheck.Proofs.Typing.Void
import TreeCheck.Proofs.Errors.Blame
import TreeCheck.Proofs.Errors.Silence
import TreeCheck.Proofs.Duplicates.Source
import TreeCheck.Proofs.Duplicates.Walks
import TreeCheck.Proofs.Duplicates.Bound
import TreeCheck.Proofs.Duplicates.Correctness
import TreeCheck.Proofs.Tables.Types
import TreeCheck.Proofs.Visits.Sight
import TreeCheck.Proofs.Tables.Identifiers
import TreeCheck.Proofs.Account.Composition
import TreeCheck.Proofs.Points.Scene
import TreeCheck.Proofs.Points.Descent
import TreeCheck.Proofs.Points.Staged
import TreeCheck.Proofs.Unused.Source
import TreeCheck.Proofs.Unused.Reads
import TreeCheck.Proofs.Unused.Warnings
import TreeCheck.Proofs.Unused.Walks
import TreeCheck.Proofs.Unused.Leaving
import TreeCheck.Proofs.Unused.Correctness
import TreeCheck.Proofs.Modularity.Source
import TreeCheck.Proofs.Modularity.Alike
import TreeCheck.Proofs.Modularity.Entering
import TreeCheck.Proofs.Modularity.Twins
import TreeCheck.Proofs.Modularity.Correctness
import TreeCheck.Proofs.Scope.Stack
import TreeCheck.Proofs.Lowering.Standing
import TreeCheck.Proofs.Lowering.Acceptance
import TreeCheck.Proofs.Lowering.Wrapped
import TreeCheck.Proofs.Lowering.Recall
import TreeCheck.Proofs.Json.Tokens
import TreeCheck.Proofs.Json.Spelling
import TreeCheck.Proofs.Loading.Root
import TreeCheck.Proofs.Loading.Filling
import TreeCheck.Proofs.Loading.Constants
import TreeCheck.Proofs.Loading.Integers
import TreeCheck.Proofs.Lowering.Numbering
import TreeCheck.Proofs.Braces.Source
import TreeCheck.Proofs.Braces.Correctness
import TreeCheck.Proofs.Report.Lines
import TreeCheck.Proofs.Report.Snippet
import TreeCheck.Proofs.Account.Renaming
import TreeCheck.Proofs.Exchange.Renumbering
import TreeCheck.Proofs.Exchange.Context
import TreeCheck.Proofs.Exchange.Correctness
import TreeCheck.Proofs.Tables.Extension
import TreeCheck.Proofs.Relabeling.Source
import TreeCheck.Proofs.Relabeling.Tables
import TreeCheck.Proofs.Relabeling.Lockstep
import TreeCheck.Proofs.Relabeling.Run
import TreeCheck.Proofs.Relabeling.Labels
import TreeCheck.Proofs.Relabeling.Correctness
import TreeCheck.Proofs.Run.Gate
import TreeCheck.Proofs.Json.Stops
import TreeCheck.Proofs.Loading.Sources
import TreeCheck.Proofs.Report.Verdict
import TreeCheck.Proofs.Json.Endings
import TreeCheck.Proofs.Loading.Stages
import TreeCheck.Proofs.Loading.Records
import TreeCheck.Proofs.Drafts.Redraft
import TreeCheck.Proofs.Drafts.Members
import TreeCheck.Proofs.Drafts.Decoding
import TreeCheck.Proofs.Drafts.Lowering
import TreeCheck.Proofs.Drafts.Correctness
import TreeCheck.Proofs.Errors.Judgement
import TreeCheck.Proofs.Functions.Source
import TreeCheck.Proofs.Functions.Around
import TreeCheck.Proofs.Functions.Kept
import TreeCheck.Proofs.Declarations.Source
import TreeCheck.Proofs.Declarations.Walks
import TreeCheck.Proofs.Declarations.Correctness
import TreeCheck.Proofs.Returns.Source
import TreeCheck.Proofs.Returns.Correctness
import TreeCheck.Proofs.Scope.Nesting
import TreeCheck.Proofs.Scope.Restoring
import TreeCheck.Proofs.Building.Parts
import TreeCheck.Proofs.Building.Distinct
import TreeCheck.Proofs.Typing.Consistency
import TreeCheck.Proofs.Typing.Shallow
import TreeCheck.Proofs.Typing.Comparisons
import TreeCheck.Proofs.Report.Bytes
import TreeCheck.Proofs.Report.Rendering
import TreeCheck.Proofs.Typing.Symmetry
import TreeCheck.Proofs.Typing.Display
