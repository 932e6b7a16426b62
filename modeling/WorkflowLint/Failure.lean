/-!
Why a document, a policy or a path is not accepted, and how that is said. A verdict on the document
has a kind; a failure of what surrounds it has none.
-/
namespace WorkflowLint

/-- The groups of rules, in the order in which they run. -/
inductive Group
  | structural
  | security
  | resourceLimit
  | advisory
  deriving DecidableEq, Repr

/-- What a verdict on a document rests on. -/
inductive Kind
  /-- The document does not fit the model of a workflow. -/
  | malformed
  | rule (group : Group)
  deriving DecidableEq, Repr

/-- The kind as a word with hyphens. -/
def Kind.label : Kind → String
  | malformed => "syntax"
  | rule .structural => "structural"
  | rule .security => "security"
  | rule .resourceLimit => "resource-limit"
  | rule .advisory => "advisory"

/-- The kind as a word with underscores. -/
def Kind.name : Kind → String
  | malformed => "syntax"
  | rule .structural => "structural"
  | rule .security => "security"
  | rule .resourceLimit => "resource_limit"
  | rule .advisory => "advisory"

def Kind.ofName? : String → Option Kind
  | "syntax" => some malformed
  | "structural" => some (rule .structural)
  | "security" => some (rule .security)
  | "resource_limit" => some (rule .resourceLimit)
  | "advisory" => some (rule .advisory)
  | _ => none

theorem Kind.ofName?_name (k : Kind) : ofName? k.name = some k := by
  rcases k with _ | (_ | _ | _ | _) <;> rfl

/-- What a policy cannot do. -/
inductive PolicyFault
  | secretPattern
  | noPermissionLevels
  deriving DecidableEq, Repr

def PolicyFault.message : PolicyFault → String
  | secretPattern => "inline_secret_pattern"
  | noPermissionLevels => "permission_levels must not be empty"

/-- Why a path cannot be read. -/
inductive FileError
  | missing
  | notFolder
  | isFolder
  | denied
  /-- The device on which it is fails. -/
  | device
  | notText
  deriving DecidableEq, Repr

def FileError.message : FileError → String
  | missing => "No such file or directory (os error 2)"
  | notFolder => "Not a directory (os error 20)"
  | isFolder => "Is a directory (os error 21)"
  | denied => "Permission denied (os error 13)"
  | device => "Input/output error (os error 5)"
  | notText => "stream did not contain valid UTF-8"

inductive Failure
  | malformed (line : Nat) (message : String)
  | violation (group : Group) (rule message : String)
  /-- The document is empty or larger than allowed. -/
  | inputSize (size limit : Nat)
  | policy (fault : PolicyFault)
  | file (e : FileError)
  | json
  /-- What was to check the document has not come to an end. What the runtime says about it is left
  out of the message. -/
  | aborted
  deriving DecidableEq, Repr

namespace Failure

/-- What a broken rule of a group is called. -/
def groupText : Group → String
  | .structural => "Structural violation"
  | .security => "Security violation"
  | .resourceLimit => "Resource limit exceeded"
  | .advisory => "Best-practice violation"

def message : Failure → String
  | malformed line message => "Syntax error at line " ++ toString line ++ ": " ++ message
  | violation group rule message => groupText group ++ " [" ++ rule ++ "]: " ++ message
  | inputSize size limit =>
    "Input of " ++ toString size ++ " bytes is outside the accepted range 1..=" ++ toString limit
  | policy fault => "Invalid policy: " ++ fault.message
  | file e => "IO error: " ++ e.message
  | json => "JSON error"
  | aborted => "check task failed"

def kind? : Failure → Option Kind
  | malformed .. => some .malformed
  | violation group .. => some (.rule group)
  | _ => none

def rule? : Failure → Option String
  | violation _ rule _ => some rule
  | _ => none

def exitCode (f : Failure) : Nat :=
  if f.kind?.isSome then 1 else 2

end Failure

end WorkflowLint
