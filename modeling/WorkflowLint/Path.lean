/-!
Paths of files. Two paths are the same place in the order if they have the same components: the
separators between two names count once, and a dot between them not at all.
-/
namespace WorkflowLint

namespace Path

inductive Component
  /-- The separator that an absolute path begins with. -/
  | root
  /-- The dot that a path begins with. -/
  | here
  | up
  | name (s : String)
  deriving DecidableEq, Repr

namespace Component

/-- Where the kinds of components stand in their order. -/
def rank : Component → Nat
  | root => 0
  | here => 1
  | up => 2
  | name _ => 3

/-- What a component is called, where components of one kind differ. -/
def label : Component → String
  | name s => s
  | _ => ""

instance : LT Component :=
  ⟨fun a b => a.rank < b.rank ∨ (a.rank = b.rank ∧ a.label < b.label)⟩

instance (a b : Component) : Decidable (a < b) :=
  inferInstanceAs (Decidable (a.rank < b.rank ∨ (a.rank = b.rank ∧ a.label < b.label)))

/-- What a piece between two separators stands for, if for anything. -/
def ofPiece? (piece : List Char) : Option Component :=
  if piece = [] ∨ piece = ['.'] then none
  else if piece = ['.', '.'] then some up
  else some (name (String.ofList piece))

end Component

def components (path : String) : List Component :=
  match path.toList.splitOn '/' with
  | [] => []
  | [] :: pieces => (if pieces = [] then [] else [.root]) ++ pieces.filterMap Component.ofPiece?
  | first :: pieces =>
    (if first = ['.'] then [.here] else []) ++ (first :: pieces).filterMap Component.ofPiece?

/-- Whether the last piece of a path says that it is a folder. -/
def demandsFolder (path : String) : Bool :=
  match (path.toList.splitOn '/').getLast? with
  | some piece => piece = [] || piece = ['.']
  | none => false

/-- The path of something below a folder. -/
def join (folder : String) (below : List String) : String :=
  let rest := "/".intercalate below
  if folder.toList.getLast? = some '/' then folder ++ rest else folder ++ "/" ++ rest

/-- Whether a path comes before another one or has the same components. -/
def le (p q : String) : Bool :=
  !decide (components q < components p)

example : components "./wf//a/./b/" = [.here, .name "wf", .name "a", .name "b"] := by
  decide +kernel

end Path

end WorkflowLint
