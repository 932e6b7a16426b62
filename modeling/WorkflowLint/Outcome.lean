import WorkflowLint.FileTree.Discovery
import WorkflowLint.Report.Json

/-!
Outcomes: what checking files has come to, in text and as JSON, and the exit code for it.
-/
namespace WorkflowLint

structure Outcome where
  path : String
  result : Except Failure Report

namespace Outcome

/-- The outcome for a file: of a check, or of a report on everything. -/
def ofFile (v : Validator) (o : Options) (all : Bool) (f : Found) : Outcome :=
  ⟨f.path, (f.content.mapError .file).bind fun bytes =>
    if all then v.lintBytes o bytes else v.checkBytes o bytes⟩

def accepted (o : Outcome) : Bool :=
  match o.result with
  | .ok r => !r.hasErrors
  | .error _ => false

def exitCode (o : Outcome) : Nat :=
  match o.result with
  | .ok r => if r.hasErrors then 1 else 0
  | .error f => f.exitCode

/-- The exit code for several outcomes is the largest of theirs. -/
def exitCodeOf (os : List Outcome) : Nat :=
  (os.map exitCode).foldl max 0

def rejectedCount (os : List Outcome) : Nat :=
  os.countP (!·.accepted)

/-! ## Text -/

/-- The lines under the path of a file. -/
def details (o : Outcome) : List String :=
  match o.result with
  | .ok r => r.findings.map fun f => "  " ++ f.text
  | .error f => ["  [ERROR] " ++ f.message]

def lines (o : Outcome) : List String :=
  (o.path ++ ": " ++ if o.accepted then "ok" else "rejected") :: o.details

def summary (os : List Outcome) : String :=
  toString os.length ++ " file(s) checked, " ++ toString (rejectedCount os) ++ " rejected"

def textLines (os : List Outcome) : List String :=
  os.flatMap lines ++ ["", summary os]

/-! ## JSON -/

def rejection (f : Failure) : Json :=
  .object [
    ("kind", (f.kind?.map Kind.toJson).getD .null),
    ("rule", .ofString? f.rule?),
    ("message", .string f.message)]

def toJson (o : Outcome) : Json :=
  .object [
    ("path", .string o.path),
    ("accepted", .bool o.accepted),
    match o.result with
    | .ok r => ("report", r.toJson)
    | .error f => ("rejection", rejection f)]

end Outcome

end WorkflowLint
