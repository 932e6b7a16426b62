import WorkflowLint.Needs
import WorkflowLint.Rule.Basic

/-!
Structural rules on what jobs need: every needed job is another job of the workflow, and, where the
policy asks for it, no jobs need each other in a circle.
-/
namespace WorkflowLint.Rule

/-- A needed job is there, and is another one. -/
def needIssues (w : Workflow) (id : String) (j : Job) : List Issue :=
  j.needs.filterMap fun n =>
    if !w.jobs.contains n then some (.unknownNeed n)
    else if n = id then some (.selfNeed id)
    else none

def jobNeeds : Rule where
  name := "job_needs"
  group := .structural
  notes c := onJobs c.workflow (needIssues c.workflow) fun _ => []

/-- A cycle is noted for its least job. -/
def cycleNote (ids : List String) : Note :=
  ⟨.job (ids.headD ""), .cycle ids⟩

def dependencyCycles : Rule where
  name := "dependency_cycles"
  group := .structural
  notes c := c.workflow.needGraph.cycles.map cycleNote

end WorkflowLint.Rule
