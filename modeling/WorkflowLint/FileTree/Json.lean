import WorkflowLint.FileTree
import WorkflowLint.Json

/-!
Trees of files as JSON: a folder is an object with a member for each entry, and a file is a string.
-/
namespace WorkflowLint.FileTree

mutual

/-- The tree that a JSON value stands for. -/
def ofJson? : Json → Option FileTree
  | .string s => some (.file (.ok (Text.Utf8.encode s.toList)))
  | .object ms => (ofMembers? ms).map (.folder none)
  | _ => none

/-- The entries that the members of an object stand for. -/
def ofMembers? : List (String × Json) → Option (List (String × FileTree))
  | [] => some []
  | (name, j) :: ms =>
    (ofJson? j).bind fun t => (ofMembers? ms).map fun es => (name, t) :: es

end

end WorkflowLint.FileTree
