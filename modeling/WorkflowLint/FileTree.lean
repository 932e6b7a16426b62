import WorkflowLint.Failure
import WorkflowLint.Path
import WorkflowLint.Text.Utf8

/-!
Trees of files, and file systems: a tree with the folder in it that relative paths begin at. A tree
has no links to folders.
-/
namespace WorkflowLint

/-- What reading a file comes to. -/
abbrev FileContent :=
  Except FileError (List UInt8)

inductive FileTree
  | file (content : FileContent)
  /-- Neither a file nor a folder, such as a device, a pipe or a link to a file. -/
  | special (content : FileContent)
  /-- A folder, which may refuse to list its entries. -/
  | folder (refusal : Option FileError) (entries : List (String × FileTree))
  /-- Something of which not even the kind can be told. -/
  | unknown (e : FileError)

namespace FileTree

/-- What a folder has under a name. -/
def child? (name : String) (entries : List (String × FileTree)) : Option FileTree :=
  (entries.find? fun e => e.1 = name).map (·.2)

/-- The entries of a folder. -/
def entries? : FileTree → Option (List (String × FileTree))
  | folder _ es => some es
  | _ => none

def isFolder (t : FileTree) : Bool :=
  t.entries?.isSome

/-- What reading comes to. -/
def content : FileTree → FileContent
  | file c | special c => c
  | folder none _ => .error .isFolder
  | folder (some e) _ | unknown e => .error e

/-- Puts a file at a place below a tree, with the folders that lead to it. -/
def put (bytes : List UInt8) : List String → FileTree → FileTree
  | [], _ => file (.ok bytes)
  | name :: names, t =>
    let es := t.entries?.getD []
    let below := put bytes names ((child? name es).getD (folder none []))
    folder none (es.filter (fun e => e.1 ≠ name) ++ [(name, below)])

/-- The tree of some files, each given with the names that lead to it. -/
def ofFiles (files : List (List String × List UInt8)) : FileTree :=
  files.foldl (fun t f => put f.2 f.1 t) (folder none [])

mutual

/-- The files below a tree, with the names that lead to them, if all folders can be listed. -/
def files : FileTree → Except FileError (List (List String × FileContent))
  | file c => .ok [([], c)]
  | special _ => .ok []
  | folder none es => filesOf es
  | folder (some e) _ | unknown e => .error e

def filesOf : List (String × FileTree) → Except FileError (List (List String × FileContent))
  | [] => .ok []
  | (name, t) :: es => do
    let below ← files t
    let beside ← filesOf es
    return below.map (fun f => (name :: f.1, f.2)) ++ beside

end

/-- Goes one component further from a tree, given the folders that it is in, innermost first. Above
the outermost folder there is only that folder itself. -/
def enter (around : List FileTree) (t : FileTree) (c : Path.Component) :
    Except FileError (List FileTree × FileTree) :=
  match t, c with
  | folder _ _, .root => .ok ([], around.getLast?.getD t)
  | folder _ _, .here => .ok (around, t)
  | folder _ _, .up => .ok (around.tail, around.head?.getD t)
  | folder _ es, .name n =>
    match child? n es with
    | some below => .ok (t :: around, below)
    | none => .error .missing
  | unknown e, _ => .error e
  | _, _ => .error .notFolder

/-- Follows components from a tree, given the folders that it is in. -/
def follow (around : List FileTree) (t : FileTree) : List Path.Component → Except FileError FileTree
  | [] => .ok t
  | c :: cs => (enter around t c).bind fun s => follow s.1 s.2 cs

end FileTree

structure FileSystem where
  root : FileTree
  /-- The names that lead down to the current folder. -/
  current : List String

namespace FileSystem

/-- A file system in which a tree is the current folder. -/
def around (t : FileTree) : FileSystem :=
  ⟨.folder none [("work", t)], ["work"]⟩

/-- Where a path with the given components begins, as components from the root on. -/
def start (s : FileSystem) (cs : List Path.Component) : List Path.Component :=
  if cs.head? = some .root then [] else s.current.map .name

def lookup (s : FileSystem) (path : String) : Except FileError FileTree :=
  let cs := Path.components path
  if path = "" then .error .missing
  else
    match s.root.follow [] (s.start cs ++ cs) with
    | .ok (.unknown e) => .error e
    | .ok t => if !t.isFolder && Path.demandsFolder path then .error .notFolder else .ok t
    | .error e => .error e

def read (s : FileSystem) (path : String) : FileContent :=
  (s.lookup path).bind FileTree.content

def readText (s : FileSystem) (path : String) : Except FileError (List Char) :=
  (s.read path).bind fun bytes =>
    match Text.Utf8.decode? bytes with
    | some cs => .ok cs
    | none => .error .notText

end FileSystem

end WorkflowLint
