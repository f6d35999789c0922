import RecordAlgebra.Item.Access
import RecordAlgebra.Json.Parser
import RecordAlgebra.Json.Printer
import RecordAlgebra.Expr.Build
import RecordAlgebra.Expr.Equality
import RecordAlgebra.Negotiation
import RecordAlgebra.Pipeline.Run
import RecordAlgebra.Pipeline.Written
import RecordAlgebra.Source.Documents
import RecordAlgebra.Source.Memory
import RecordAlgebra.Source.Scripted
import RecordAlgebra.Plan.Coverage
import RecordAlgebra.Proofs.Datum.Basic
import RecordAlgebra.Proofs.Datum.Elements
import RecordAlgebra.Proofs.Datum.Shown
import RecordAlgebra.Proofs.Ensures
import RecordAlgebra.Proofs.Eval.Adequacy
import RecordAlgebra.Proofs.Eval.Progress
import RecordAlgebra.Proofs.Eval.Sound
import RecordAlgebra.Proofs.Source.Execution
import RecordAlgebra.Proofs.Value.Order
import RecordAlgebra.Proofs.Value.Sorting
import RecordAlgebra.Proofs.Sequence.Sorted
import RecordAlgebra.Proofs.Allowance
import RecordAlgebra.Proofs.Sequence.Keeping
import RecordAlgebra.Proofs.Value.Failing
import RecordAlgebra.Proofs.Eval.Keeping
import RecordAlgebra.Proofs.Item.Keeping
import RecordAlgebra.Proofs.Eval.InputReads
import RecordAlgebra.Proofs.Item.History
import RecordAlgebra.Proofs.Item.Life
import RecordAlgebra.Proofs.Calendar.Stored
import RecordAlgebra.Proofs.Document.Stored
import RecordAlgebra.Proofs.Document.Identity
import RecordAlgebra.Proofs.Source.Documents
import RecordAlgebra.Proofs.Source.Memory
import RecordAlgebra.Proofs.Document.Told
import RecordAlgebra.Proofs.Plan.Elements
import RecordAlgebra.Proofs.Plan.Conditions
import RecordAlgebra.Proofs.Plan.Projections
import RecordAlgebra.Proofs.Plan.Splits
import RecordAlgebra.Proofs.Plan.Aggregates
import RecordAlgebra.Proofs.Item.Keys
import RecordAlgebra.Proofs.Item.Coherence
import RecordAlgebra.Proofs.Sequence.Identifying
import RecordAlgebra.Proofs.Sequence.Grouped
import RecordAlgebra.Proofs.Pipeline.Sorting
import RecordAlgebra.Proofs.Source.Transparency
import RecordAlgebra.Proofs.Eval.Interchange
import RecordAlgebra.Proofs.Value.Exactness
import RecordAlgebra.Proofs.Eval.Kept
import RecordAlgebra.Proofs.Sequence.Windows
import RecordAlgebra.Proofs.Eval.Lazy
import RecordAlgebra.Proofs.Document.Rows
import RecordAlgebra.Proofs.Source.Responses
import RecordAlgebra.Proofs.Source.Replacing
import RecordAlgebra.Proofs.Eval.Reached
import RecordAlgebra.Proofs.Document.Converting
import RecordAlgebra.Proofs.Pipeline.Written
import RecordAlgebra.Proofs.Plan.Written
import RecordAlgebra.Proofs.Eval.Totals
import RecordAlgebra.Proofs.Sequence.Distinct
import RecordAlgebra.Proofs.Typing.Unification
import RecordAlgebra.Proofs.Eval.Connectives
import RecordAlgebra.Proofs.Plan.Unfailing
import RecordAlgebra.Proofs.Document.Conforming
import RecordAlgebra.Proofs.Plan.Conforming
import RecordAlgebra.Proofs.Plan.Tracking
import RecordAlgebra.Proofs.Typing.Assembly
