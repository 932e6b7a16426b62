import WorkflowLint.Table

/-!
The model of a workflow: what starts it, what it may touch, and its jobs with their steps.
-/
namespace WorkflowLint

structure Step where
  name : Option String
  /-- The action that the step runs. -/
  uses : Option String
  /-- The shell command that the step runs. -/
  run : Option String
  arguments : Table String
  env : Table String
  condition : Option String
  deriving DecidableEq

structure Job where
  name : Option String
  runsOn : String
  /-- The jobs that must end before this one. -/
  needs : List String
  permissions : Table String
  steps : List Step
  env : Table String
  condition : Option String
  timeoutMinutes : Int64
  deriving DecidableEq

structure Workflow where
  name : String
  /-- The events that start the workflow, each with the text of its settings. -/
  triggers : Table String
  permissions : Table String
  jobs : Table Job
  env : Table String
  deriving DecidableEq

def Step.blank : Step :=
  ⟨none, none, none, ∅, ∅, none⟩

/-- A job of which nothing is said. It may run for six hours. -/
def Job.blank : Job :=
  ⟨none, "", [], ∅, [], ∅, none, 360⟩

def Workflow.blank : Workflow :=
  ⟨"", ∅, ∅, ∅, ∅⟩

/-- What a step is called: its name, else its action, else its command. -/
def Step.label (s : Step) : String :=
  ((s.name.or s.uses).or s.run).getD "<empty step>"

/-- All steps, job by job. -/
def Workflow.allSteps (w : Workflow) : List Step :=
  w.jobs.values.flatMap (·.steps)

def Workflow.stepCount (w : Workflow) : Nat :=
  w.allSteps.length

end WorkflowLint
