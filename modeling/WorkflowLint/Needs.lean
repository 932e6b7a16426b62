import WorkflowLint.Workflow

/-!
The graph of what jobs need, and the search for cycles in it. The search goes down from each job in
turn. It keeps the path that it came along, and the jobs of which all that they need has been seen;
where the path comes back to itself, it has found a cycle.
-/
namespace WorkflowLint

structure NeedGraph where
  nodes : List String
  next : String → List String

/-- The jobs of a workflow and the other jobs that each of them needs. -/
def Workflow.needGraph (w : Workflow) : NeedGraph where
  nodes := w.jobs.names
  next id :=
    match w.jobs.get? id with
    | some job => job.needs.filter fun n => n ≠ id && w.jobs.contains n
    | none => []

namespace NeedGraph

/-- What the search knows: the nodes that are done, and the cycles found, each as a list of nodes
of which every one leads to the next and the last one to the first. -/
structure Search where
  done : List String
  cycles : List (List String)
  deriving DecidableEq, Repr

def least (id : String) (ids : List String) : String :=
  ids.foldl (fun m n => if n < m then n else m) id

/-- The same cycle, beginning at its least node. -/
def fromLeast (cycle : List String) : List String :=
  match cycle with
  | [] => []
  | id :: ids =>
    let start := least id ids
    cycle.dropWhile (· ≠ start) ++ cycle.takeWhile (· ≠ start)

/-- Adds a cycle, unless it was found before. -/
def Search.addCycle (s : Search) (cycle : List String) : Search :=
  let cycle := fromLeast cycle
  if cycle ∈ s.cycles then s else { s with cycles := s.cycles ++ [cycle] }

def Search.finish (s : Search) (node : String) : Search :=
  { s with done := node :: s.done }

/-- The nodes that are not on a path. -/
def offPath (g : NeedGraph) (path : List String) : List String :=
  g.nodes.filter (· ∉ path)

theorem length_offPath_lt {g : NeedGraph} {node : String} {path : List String}
    (hp : node ∉ path) (hn : node ∈ g.nodes) :
    (g.offPath (path ++ [node])).length < (g.offPath path).length := by
  have h : g.offPath (path ++ [node]) = (g.offPath path).filter (· ≠ node) := by
    simp only [offPath, List.filter_filter]
    refine List.filter_congr fun n _ => ?_
    simp [and_comm, not_or]
  rw [h]
  refine (List.length_filter_lt_length_iff_exists).2 ⟨node, ?_, by simp⟩
  simp [offPath, hn, hp]

mutual

/-- Searches from a node that the path leads to. -/
def visit (g : NeedGraph) (path : List String) (s : Search) (node : String) : Search :=
  if _ : node ∈ path then s.addCycle (path.dropWhile (· ≠ node))
  else if node ∈ s.done then s
  else if _ : node ∈ g.nodes then
    (visitAll g (path ++ [node]) s (g.next node)).finish node
  else s.finish node
termination_by ((g.offPath path).length, 0)
decreasing_by exact Prod.Lex.left _ _ (length_offPath_lt ‹_› ‹_›)

/-- Searches from the nodes that the last node of the path leads to, one after another. -/
def visitAll (g : NeedGraph) (path : List String) (s : Search) (nodes : List String) : Search :=
  match nodes with
  | [] => s
  | n :: ns => visitAll g path (visit g path s n) ns
termination_by ((g.offPath path).length, nodes.length + 1)
decreasing_by
  · exact Prod.Lex.right _ (Nat.succ_pos _)
  · exact Prod.Lex.right _ (by simp)

end

def search (g : NeedGraph) : Search :=
  g.visitAll [] ⟨[], []⟩ g.nodes

/-- The cycles of a graph that the search finds, each from its least node on. -/
def cycles (g : NeedGraph) : List (List String) :=
  g.search.cycles

end NeedGraph

end WorkflowLint
