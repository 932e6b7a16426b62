import WorkflowLint.Text.Lines
import WorkflowLint.Workflow

/-!
The outline of a workflow: its structure in lines of text.
-/
namespace WorkflowLint

/-- What kind of action a step is. -/
def Step.kindText (s : Step) : String :=
  match s.uses, s.run with
  | some uses, _ => "uses " ++ uses
  | none, some _ => "run"
  | none, none => "(empty)"

def Step.outline (index : Nat) (s : Step) : String :=
  "    " ++ toString (index + 1) ++ ". " ++ String.ofList (Text.firstLine s.label.toList) ++
    " (" ++ s.kindText ++ ")"

def Job.outline (id : String) (j : Job) : List String :=
  ["", "  " ++ id ++ " [" ++ j.runsOn ++ "] timeout=" ++ toString j.timeoutMinutes.toInt ++ "m"] ++
    (if j.needs = [] then [] else ["    needs: " ++ ", ".intercalate j.needs]) ++
    j.steps.mapIdx Step.outline

def Workflow.outline (w : Workflow) : List String :=
  ["Workflow: " ++ w.name, "Triggers: " ++ ", ".intercalate w.triggers.names] ++
    (if w.permissions.isEmpty then []
      else ["Permissions: " ++
        ", ".intercalate (w.permissions.entries.map fun e => e.1 ++ "=" ++ e.2)]) ++
    ["Jobs: " ++ toString w.jobs.size, "Steps: " ++ toString w.stepCount] ++
    w.jobs.entries.flatMap fun e => e.2.outline e.1

end WorkflowLint
