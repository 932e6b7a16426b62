import WorkflowLint.Policy.Json
import WorkflowLint.Validator

/-!
Validators from policy documents.
-/
namespace WorkflowLint.Validator

/-- The validator for a policy document, or for the preset where there is none. -/
def load (document : Option (List Char)) : Except Failure Validator :=
  match document with
  | none => (ofPolicy .preset).mapError .policy
  | some text =>
    match Policy.ofText? text with
    | none => .error .json
    | some p => (ofPolicy p).mapError .policy

end WorkflowLint.Validator
