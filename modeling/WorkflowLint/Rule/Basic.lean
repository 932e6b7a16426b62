import WorkflowLint.Issue
import WorkflowLint.Pattern.Expr
import WorkflowLint.Policy

/-!
Rules: a rule has a name, belongs to a group, and notes issues of a workflow under a policy.
-/
namespace WorkflowLint

structure Context where
  policy : Policy
  /-- The expression of the policy's pattern for secrets in commands. -/
  secretPattern : Pattern.Expr
  workflow : Workflow

/-- An issue, and what it was seen in. -/
structure Note where
  subject : Subject
  issue : Issue
  deriving DecidableEq

structure Rule where
  name : String
  group : Group
  notes : Context → List Note

namespace Rule

def onWorkflow (issues : List Issue) : List Note :=
  issues.map (⟨.workflow, ·⟩)

/-- Notes issues of a job, and after them issues of each of its steps. -/
def onJob (id : String) (job : Job) (ofJob : List Issue) (ofStep : Step → List Issue) :
    List Note :=
  ofJob.map (⟨.job id, ·⟩) ++
    job.steps.zipIdx.flatMap fun (s, i) => (ofStep s).map (⟨.step id i s, ·⟩)

/-- Notes issues job by job, in the order of the jobs. -/
def onJobs (w : Workflow) (ofJob : String → Job → List Issue) (ofStep : Step → List Issue) :
    List Note :=
  w.jobs.entries.flatMap fun (id, job) => onJob id job (ofJob id job) ofStep

def onSteps (w : Workflow) (ofStep : Step → List Issue) : List Note :=
  onJobs w (fun _ _ => []) ofStep

def finding (r : Rule) (n : Note) : Finding where
  rule := r.name
  kind := .rule r.group
  severity := n.issue.severity
  message := n.issue.message n.subject
  job := n.subject.job?
  step := n.subject.step?
  fix := n.issue.fix?

def findings (r : Rule) (c : Context) : List Finding :=
  (r.notes c).map r.finding

end Rule

end WorkflowLint
