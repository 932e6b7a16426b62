import WorkflowLint.Rule.Basic

/-!
Structural rules: what a workflow and each of its jobs must have.
-/
namespace WorkflowLint.Rule

/-- Whether a text is nothing but white space. -/
def isVoid (s : String) : Bool :=
  Text.trim s.toList = []

def workflowName : Rule where
  name := "workflow_name"
  group := .structural
  notes c := onWorkflow (if isVoid c.workflow.name then [.noName] else [])

def workflowTriggers : Rule where
  name := "workflow_triggers"
  group := .structural
  notes c := onWorkflow (if c.workflow.triggers.isEmpty then [.noTriggers] else [])

def workflowJobs : Rule where
  name := "workflow_jobs"
  group := .structural
  notes c := onWorkflow (if c.workflow.jobs.isEmpty then [.noJobs] else [])

/-- A job runs on a known runner. -/
def runnerIssues (p : Policy) (j : Job) : List Issue :=
  let runner := String.ofList (Text.trim j.runsOn.toList)
  if runner = "" then [.noRunner]
  else if Text.mentionsAny runner p.runnerLabels then []
  else [.unknownRunner runner p.runnerLabels]

/-- The timeout of a job is in the range that any timeout has. -/
def timeoutIssues (p : Policy) (j : Job) : List Issue :=
  let most := p.limits.timeoutMinutes
  if 0 < j.timeoutMinutes ∧ j.timeoutMinutes ≤ most then []
  else [.timeoutOutside j.timeoutMinutes most]

/-- A step does one thing. -/
def actionIssues (s : Step) : List Issue :=
  match s.uses, s.run with
  | none, none => [.noAction]
  | some _, some _ => [.twoActions]
  | _, _ => []

def jobShape : Rule where
  name := "job_shape"
  group := .structural
  notes c :=
    onJobs c.workflow
      (fun _ j =>
        runnerIssues c.policy j ++ timeoutIssues c.policy j ++
          if j.steps = [] then [.noSteps] else [])
      actionIssues

end WorkflowLint.Rule
