import WorkflowLint.Main
import WorkflowLint.Proofs.BlockScalars
import WorkflowLint.Proofs.Commas
import WorkflowLint.Proofs.Comments
import WorkflowLint.Proofs.Composition
import WorkflowLint.Proofs.Cycles
import WorkflowLint.Proofs.Dashes
import WorkflowLint.Proofs.Descent
import WorkflowLint.Proofs.Forms
import WorkflowLint.Proofs.InlineSecrets
import WorkflowLint.Proofs.Interpolation
import WorkflowLint.Proofs.Layout
import WorkflowLint.Proofs.Moves
import WorkflowLint.Proofs.Neighbours
import WorkflowLint.Proofs.NestedNames
import WorkflowLint.Proofs.OneLine
import WorkflowLint.Proofs.Outcomes
import WorkflowLint.Proofs.Overrides
import WorkflowLint.Proofs.QuotedItems
import WorkflowLint.Proofs.ReadBack
import WorkflowLint.Proofs.Relaxation
import WorkflowLint.Proofs.Shapes
import WorkflowLint.Proofs.Spacing
import WorkflowLint.Proofs.Timeouts
import WorkflowLint.Proofs.UnknownFields
import WorkflowLint.Proofs.WrappedColumns
import WorkflowLint.Workflow.Json
