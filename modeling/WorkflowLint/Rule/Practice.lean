import WorkflowLint.Entry
import WorkflowLint.Numeral
import WorkflowLint.Rule.Basic

/-!
Advisory rules: pinned actions, caches, and how long artifacts are kept.
-/
namespace WorkflowLint.Rule

/-- The version that the reference to an action names behind its last at sign. -/
def version? (uses : String) : Option String :=
  (Entry.splitAtLast '@' uses.toList).map fun (_, ref) => String.ofList ref

/-- An action of another repository has a version that does not change. -/
def pinningIssues (p : Policy) (s : Step) : List Issue :=
  match s.uses with
  | none => []
  | some uses =>
    if uses = "" || p.isLocalAction uses || p.isContainerAction uses then []
    else
      match version? uses with
      | none => [.notPinned uses]
      | some ref => if ref ∈ p.mutableRefs then [.mutableRef uses ref] else []

def actionPinning : Rule where
  name := "action_pinning"
  group := .advisory
  notes c := onSteps c.workflow (pinningIssues c.policy)

/-- Whether a step runs one of some actions. -/
def usesAny (actions : List String) (s : Step) : Bool :=
  s.uses.any fun uses => Text.mentionsAny uses actions

def cacheIssues (p : Policy) (w : Workflow) : List Issue :=
  if w.allSteps = [] ∨ w.allSteps.any (usesAny p.cacheActions) then [] else [.noCache]

def dependencyCaching : Rule where
  name := "dependency_caching"
  group := .advisory
  notes c := onWorkflow (cacheIssues c.policy c.workflow)

/-- The whole number that an argument gives. -/
def wholeNumber? (text : String) : Option Int64 :=
  (Numeral.signed? (Text.trim text.toList)).bind Numeral.int64?

/-- A step that uploads artifacts keeps them for a number of days that is not too large. -/
def retentionIssues (p : Policy) (s : Step) : List Issue :=
  let most := p.limits.artifactRetentionDays
  match if usesAny p.uploadActions s then s.arguments.get? "retention-days" else none with
  | none => []
  | some raw =>
    match wholeNumber? raw with
    | none => [.badRetention raw most]
    | some days => if most < days then [.longRetention days most] else []

def artifactRetention : Rule where
  name := "artifact_retention"
  group := .advisory
  notes c := onSteps c.workflow (retentionIssues c.policy)

end WorkflowLint.Rule
