import WorkflowLint.Text.Utf8
import WorkflowLint.Validator
import WorkflowLint.Workflow.Bounded

/-!
Reports on documents. A document is checked, which ends at the first error, or linted, which lists
everything; in both cases bytes must be few enough and not none.
-/
namespace WorkflowLint

structure Report where
  workflow : String
  jobs : Nat
  steps : Nat
  findings : List Finding
  deriving DecidableEq

structure Options where
  /-- The columns that a tab counts in indentation. -/
  tabWidth : Nat
  /-- The most bytes that a document may have. -/
  maxBytes : Nat
  deriving DecidableEq

def Options.preset : Options :=
  ⟨2, 65536⟩

def Report.ofWorkflow (w : Workflow) (findings : List Finding) : Report :=
  ⟨w.name, w.jobs.size, w.stepCount, findings⟩

def Report.hasErrors (r : Report) : Bool :=
  r.findings.any (·.isError)

/-- What a document that cannot be read fails with. -/
def SyntaxError.toFailure (e : SyntaxError) : Failure :=
  .malformed e.line e.message

def Stop.toFailure : Stop → Failure
  | malformed e => e.toFailure
  | overflow => .aborted

namespace Validator

/-- Reads a document and judges the workflow in it. -/
def reportText (tabWidth : Nat) (judge : Workflow → Except Failure (List Finding))
    (text : List Char) : Except Failure Report := do
  let w ← (Workflow.parse tabWidth text).mapError Stop.toFailure
  let findings ← judge w
  return .ofWorkflow w findings

/-- Passes bytes on as text, if there are not too many or none. -/
def receive (o : Options) (bytes : List UInt8) : Except Failure (List Char) :=
  if bytes.length = 0 ∨ o.maxBytes < bytes.length then
    .error (.inputSize bytes.length o.maxBytes)
  else .ok (Text.Utf8.decode bytes)

/-- Reports on a document without errors, and fails at the first error of any other. -/
def checkText (v : Validator) (tabWidth : Nat) (text : List Char) : Except Failure Report :=
  reportText tabWidth v.validate text

def lintText (v : Validator) (tabWidth : Nat) (text : List Char) : Except Failure Report :=
  reportText tabWidth (fun w => .ok (v.lint w)) text

def checkBytes (v : Validator) (o : Options) (bytes : List UInt8) : Except Failure Report :=
  (receive o bytes).bind (v.checkText o.tabWidth)

def lintBytes (v : Validator) (o : Options) (bytes : List UInt8) : Except Failure Report :=
  (receive o bytes).bind (v.lintText o.tabWidth)

def preset : Except PolicyFault Validator :=
  ofPolicy .preset

/-- Whether a document passes every rule of the preset. -/
def accepts (bytes : List UInt8) : Bool :=
  match preset with
  | .ok v => (v.checkBytes .preset bytes).isOk
  | .error _ => false

end Validator

end WorkflowLint
