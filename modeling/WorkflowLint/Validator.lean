import WorkflowLint.Pattern.Reader
import WorkflowLint.Rule.Limits
import WorkflowLint.Rule.Needs
import WorkflowLint.Rule.Practice
import WorkflowLint.Rule.Security
import WorkflowLint.Rule.Shape

/-!
Validators: a policy with its pattern read. A validator can list all findings of its rules, or stop
at the first one that is an error.
-/
namespace WorkflowLint

structure Validator where
  policy : Policy
  secretPattern : Pattern.Expr
  deriving DecidableEq

namespace Validator

/-- The validator for a policy whose pattern can be read and that has permission levels. What holds
of the validators of all policies holds of those whose pattern `Pattern.ofText?` reads, which leaves
some of the documented syntax out. -/
def ofPolicy (p : Policy) : Except PolicyFault Validator :=
  match Pattern.ofText? p.inlineSecretPattern.toList with
  | none => .error .secretPattern
  | some pattern => if p.permissionLevels = [] then .error .noPermissionLevels else .ok ⟨p, pattern⟩

/-- The rules in the order in which they run. -/
def rules (v : Validator) : List Rule :=
  [.workflowName, .workflowTriggers, .workflowJobs, .jobShape, .jobNeeds] ++
    (if v.policy.detectCycles then [.dependencyCycles] else []) ++
    [.actionReference, .runCommand, .permissions, .hardcodedSecrets, .expressionInjection,
      .resourceLimits, .actionPinning, .dependencyCaching, .artifactRetention]

def ruleNames (v : Validator) : List String :=
  v.rules.map (·.name)

def context (v : Validator) (w : Workflow) : Context :=
  ⟨v.policy, v.secretPattern, w⟩

/-- All findings, rule by rule. -/
def lint (v : Validator) (w : Workflow) : List Finding :=
  v.rules.flatMap fun r => r.findings (v.context w)

/-- Lets findings pass up to the first error. -/
def screen : List Finding → Except Failure (List Finding)
  | [] => .ok []
  | f :: fs => if f.isError then .error f.toFailure else (screen fs).map (f :: ·)

/-- Runs rules one after another until one finds an error. -/
def runRules (c : Context) : List Rule → Except Failure (List Finding)
  | [] => .ok []
  | r :: rs => do
    let now ← screen (r.findings c)
    let later ← runRules c rs
    return now ++ later

/-- The findings of an accepted workflow, none of which is an error, or the first error. -/
def validate (v : Validator) (w : Workflow) : Except Failure (List Finding) :=
  runRules (v.context w) v.rules

end Validator

end WorkflowLint
