import WorkflowLint.FileTree

/-!
Finding the files that arguments name: a folder stands for the files below it that a glob includes,
and all else for itself. The files come in the order of their paths, each once.
-/
namespace WorkflowLint

/-- A file with the path that it was found by, and what reading it comes to. -/
structure Found where
  path : String
  content : FileContent

/-- Leaves out what has the same components as the one before it. -/
def Found.dropRepeats : List Found → List Found
  | [] => []
  | f :: fs =>
    f :: (dropRepeats fs).dropWhile fun g => Path.components g.path = Path.components f.path

/-- The files below a folder whose path from there is included. -/
def FileTree.included (includes : String → Bool) (path : String) (t : FileTree) :
    Except FileError (List Found) :=
  t.files.map fun fs =>
    (fs.filter fun f => includes ("/".intercalate f.1)).map fun f => ⟨Path.join path f.1, f.2⟩

namespace FileSystem

/-- The files that one argument names. -/
def named (s : FileSystem) (includes : String → Bool) (path : String) :
    Except FileError (List Found) :=
  (s.lookup path).bind fun t =>
    if t.isFolder then t.included includes path else .ok [⟨path, t.content⟩]

/-- The files that some arguments name. -/
def discover (s : FileSystem) (includes : String → Bool) (paths : List String) :
    Except FileError (List Found) :=
  (paths.mapM (s.named includes)).map fun fs =>
    Found.dropRepeats (fs.flatten.mergeSort fun f g => Path.le f.path g.path)

end FileSystem

end WorkflowLint
