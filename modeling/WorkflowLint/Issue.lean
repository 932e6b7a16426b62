import WorkflowLint.Finding
import WorkflowLint.Text.Lines
import WorkflowLint.Text.Blank
import WorkflowLint.Workflow

/-!
Issues: what can be wrong with a workflow, and how it is said. An issue knows the cause; where it
was seen is a subject. All wording of findings stands here.
-/
namespace WorkflowLint

/-- What a finding is about. -/
inductive Subject
  | workflow
  | job (id : String)
  | step (id : String) (index : Nat) (step : Step)
  deriving DecidableEq

namespace Subject

/-- The first line of what a step is called. -/
def stepTitle (s : Step) : String :=
  String.ofList (Text.trim (Text.firstLine s.label.toList))

def text : Subject → String
  | workflow => "Workflow"
  | job id => "Job '" ++ id ++ "'"
  | step id index s =>
    "Job '" ++ id ++ "' step " ++ toString (index + 1) ++ " ('" ++ stepTitle s ++ "')"

/-- A sentence on the subject. -/
def sentence (s : Subject) (predicate : String) : String :=
  s.text ++ " " ++ predicate

def job? : Subject → Option String
  | workflow => none
  | job id => some id
  | step id .. => some id

def step? : Subject → Option Nat
  | step _ index _ => some index
  | _ => none

end Subject

inductive Issue
  | noName
  | noTriggers
  | noJobs
  | noRunner
  | unknownRunner (runner : String) (known : List String)
  | timeoutOutside (minutes most : Int64)
  | noSteps
  | noAction
  | twoActions
  | unknownNeed (id : String)
  | selfNeed (id : String)
  /-- Each job needs the next one, and the last one the first. -/
  | cycle (ids : List String)
  | pathTraversal (uses : String)
  | notRepository (uses : String)
  | dangerousCommand (command : String)
  | pipedDownload
  | unknownPermission (scope : String)
  | unknownLevel (scope level : String) (known : List String)
  | secretInEnv (name : String)
  | secretInCommand (name : String)
  | untrustedContext (context : String)
  | longTimeout (minutes most : Int64)
  | manySteps (count : Nat) (most : UInt64)
  | manyJobs (count : Nat) (most : UInt64)
  | notPinned (uses : String)
  | mutableRef (uses ref : String)
  | noCache
  | longRetention (days most : Int64)
  | badRetention (days : String) (most : Int64)
  deriving DecidableEq

namespace Issue

def severity : Issue → Severity
  | notPinned .. | mutableRef .. => .warning
  | noCache => .info
  | _ => .error

def listing (names : List String) : String :=
  ", ".intercalate names

/-- A cycle written out, back to its first job. -/
def circle (ids : List String) : String :=
  " -> ".intercalate (ids ++ ids.take 1)

/-- The message of a finding. Two issues are about the jobs as a whole and name no subject. -/
def message (s : Subject) : Issue → String
  | noName => s.sentence "has no name"
  | noTriggers => s.sentence "has no trigger events"
  | noJobs => s.sentence "defines no jobs"
  | noRunner => s.sentence "has no runs-on"
  | unknownRunner runner _ => s.sentence ("uses unknown runner '" ++ runner ++ "'")
  | timeoutOutside minutes most =>
    s.sentence ("has timeout-minutes " ++ toString minutes.toInt ++ " outside 1..=" ++
      toString most.toInt)
  | noSteps => s.sentence "has no steps"
  | noAction => s.sentence "has neither uses nor run"
  | twoActions => s.sentence "has both uses and run"
  | unknownNeed id => s.sentence ("needs unknown job '" ++ id ++ "'")
  | selfNeed _ => s.sentence "depends on itself"
  | cycle ids => "Jobs form a dependency cycle: " ++ circle ids
  | pathTraversal uses => s.sentence ("references '" ++ uses ++ "' with a path traversal")
  | notRepository uses => s.sentence ("references '" ++ uses ++ "', expected owner/repo")
  | dangerousCommand command => s.sentence ("runs dangerous command '" ++ command ++ "'")
  | pipedDownload => s.sentence "pipes a download into a shell"
  | unknownPermission scope => s.sentence ("declares unknown permission '" ++ scope ++ "'")
  | unknownLevel scope level known =>
    s.sentence ("grants '" ++ scope ++ "' level '" ++ level ++ "', expected one of: " ++
      listing known)
  | secretInEnv name => s.sentence ("env '" ++ name ++ "' looks like a hardcoded secret")
  | secretInCommand name => s.sentence ("assigns an inline '" ++ name ++ "' value")
  | untrustedContext context =>
    s.sentence ("interpolates untrusted '" ++ context ++ "' without quotes")
  | longTimeout minutes most =>
    s.sentence ("timeout of " ++ toString minutes.toInt ++ " minutes exceeds " ++
      toString most.toInt)
  | manySteps count most =>
    s.sentence ("has " ++ toString count ++ " steps, more than " ++ toString most.toNat)
  | manyJobs count most =>
    s.sentence ("has " ++ toString count ++ " jobs, more than " ++ toString most.toNat)
  | notPinned uses => s.sentence ("action '" ++ uses ++ "' is not pinned")
  | mutableRef uses ref =>
    s.sentence ("action '" ++ uses ++ "' tracks mutable branch '" ++ ref ++ "'")
  | noCache => "No step uses a dependency cache"
  | longRetention days most =>
    s.sentence ("keeps artifacts for " ++ toString days.toInt ++ " days, more than " ++
      toString most.toInt)
  | badRetention days _ => s.sentence ("has non-integer retention-days '" ++ days ++ "'")

def fix? : Issue → Option String
  | noName => some "Add a top-level `name:` key"
  | noTriggers => some "Add an `on:` section, e.g. `on: push`"
  | noJobs => some "Add at least one job under `jobs:`"
  | noRunner => some "Set `runs-on`, e.g. `ubuntu-latest`"
  | unknownRunner _ known => some ("Use a runner matching one of: " ++ listing known)
  | noSteps => some "Add at least one step with `uses` or `run`"
  | noAction | twoActions => some "A step must have exactly one of `uses` or `run`"
  | unknownNeed id => some ("Define job '" ++ id ++ "' or remove it from `needs`")
  | selfNeed id => some ("Remove '" ++ id ++ "' from its own `needs`")
  | cycle _ => some "Break the cycle by removing one of the `needs` entries"
  | notRepository _ => some "Use `owner/repo@ref`, `./path` or `docker://image`"
  | pipedDownload => some "Download to a file and verify its checksum before running it"
  | secretInEnv _ | secretInCommand _ =>
    some ("Move the value into repository secrets and reference it with " ++
      "`$\x7b\x7b secrets.NAME \x7d\x7d`")
  | untrustedContext _ =>
    some "Pass the value through `env:` or wrap the expression in quotes"
  | manySteps .. => some "Split the job or move steps into a composite action"
  | manyJobs .. => some "Split the workflow or use a matrix"
  | notPinned .. | mutableRef .. => some "Pin the action to a release tag or commit SHA"
  | noCache => some "Add an `actions/cache` step for package or build caches"
  | longRetention _ most | badRetention _ most =>
    some ("Set retention-days to at most " ++ toString most.toInt)
  | timeoutOutside .. | pathTraversal _ | dangerousCommand _ | unknownPermission _
  | unknownLevel .. | longTimeout .. => none

end Issue

end WorkflowLint
