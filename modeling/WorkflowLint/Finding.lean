import WorkflowLint.Failure

/-!
Findings: what a rule has to say about a workflow, and where.
-/
namespace WorkflowLint

inductive Severity
  | error
  | warning
  | info
  deriving DecidableEq, Repr

/-- The severity at the head of a printed finding. -/
def Severity.label : Severity → String
  | error => "ERROR"
  | warning => "WARN"
  | info => "INFO"

def Severity.name : Severity → String
  | error => "error"
  | warning => "warning"
  | info => "info"

def Severity.ofName? : String → Option Severity
  | "error" => some error
  | "warning" => some warning
  | "info" => some info
  | _ => none

structure Finding where
  rule : String
  kind : Kind
  severity : Severity
  message : String
  job : Option String
  /-- Counted from 0 within the job. -/
  step : Option Nat
  fix : Option String
  deriving DecidableEq, Repr

namespace Finding

def isError (f : Finding) : Bool :=
  f.severity == .error

/-- The rejection of a document for this finding. -/
def toFailure (f : Finding) : Failure :=
  match f.kind with
  | .malformed => .malformed 0 f.message
  | .rule group => .violation group f.rule f.message

def text (f : Finding) : String :=
  let head := "[" ++ f.severity.label ++ "] " ++ f.rule ++ ": " ++ f.message
  match f.fix with
  | some fix => head ++ " (fix: " ++ fix ++ ")"
  | none => head

end Finding

end WorkflowLint
