import WorkflowLint.Rule.Basic

/-!
Rules on resources: how long jobs may run, and how many steps and jobs there may be.
-/
namespace WorkflowLint.Rule

def jobLimitIssues (l : Limits) (j : Job) : List Issue :=
  (if l.jobTimeoutMinutes < j.timeoutMinutes then
    [.longTimeout j.timeoutMinutes l.jobTimeoutMinutes] else []) ++
  if l.stepsPerJob.toNat < j.steps.length then [.manySteps j.steps.length l.stepsPerJob] else []

def workflowLimitIssues (l : Limits) (w : Workflow) : List Issue :=
  if l.jobs.toNat < w.jobs.size then [.manyJobs w.jobs.size l.jobs] else []

/-- The limits of the jobs come before that of the workflow. -/
def resourceLimits : Rule where
  name := "resource_limits"
  group := .resourceLimit
  notes c :=
    onJobs c.workflow (fun _ j => jobLimitIssues c.policy.limits j) (fun _ => []) ++
      onWorkflow (workflowLimitIssues c.policy.limits c.workflow)

end WorkflowLint.Rule
