import WorkflowLint.Json.Writer
import WorkflowLint.Report

/-!
Findings and reports as JSON.
-/
namespace WorkflowLint

/-- The member of an object, if it has a value. -/
def Json.member? (name : String) (j : Option Json) : List (String × Json) :=
  j.toList.map (name, ·)

def Kind.toJson (k : Kind) : Json :=
  .string k.name

/-- A finding as an object, without the members that it has no value for. -/
def Finding.toJson (f : Finding) : Json :=
  .object ([
    ("rule", .string f.rule),
    ("kind", f.kind.toJson),
    ("severity", .string f.severity.name),
    ("message", .string f.message)] ++
    Json.member? "job" (f.job.map .string) ++
    Json.member? "step" (f.step.map .ofNat) ++
    Json.member? "fix" (f.fix.map .string))

def Report.toJson (r : Report) : Json :=
  .object [
    ("workflow", .string r.workflow),
    ("jobs", .ofNat r.jobs),
    ("steps", .ofNat r.steps),
    ("findings", .array (r.findings.map (·.toJson)))]

end WorkflowLint
