import Mathlib.Control.Monad.Basic
import WorkflowLint.CommandLine.Run
import WorkflowLint.Proofs.Decoding
import WorkflowLint.Proofs.Discovery
import WorkflowLint.Proofs.Verdict

/-!
# What a check comes to

Every file that is found has an outcome of its own, and the exit code is the largest that one of
them asks for. It is the same whether everything is reported or only the first error.
-/
namespace WorkflowLint

variable {v : Validator} {o : Options} {f g : Found} {all : Bool} {os : List Outcome}

/-! ## One file -/

namespace Outcome

end Outcome

/-! ## A whole run -/

namespace CommandLine

variable {r : CheckRequest} {s : FileSystem} {fs gs : List Found}

deriving instance DecidableEq for Found

/-- A file that is neither empty nor too large, but wider than can be counted where tabs are of the
greatest width. -/
def wideWorkflow : List UInt8 :=
  Text.Utf8.encode Workflow.farRight

def wide : FileSystem :=
  .around (.folder none [("wide.yml", .file (.ok wideWorkflow))])

end CommandLine

end WorkflowLint
