import WorkflowLint.Line

/-!
A place in the lines of a document, which steps forward line by line and can take back its last
step.
-/
namespace WorkflowLint

structure Cursor where
  lines : List Line
  pos : Nat
  /-- Where the last step began. -/
  mark : Nat
  deriving DecidableEq, Repr

namespace Cursor

def ofText (tabWidth : Nat) (text : List Char) : Cursor :=
  ⟨Line.ofText tabWidth text, 0, 0⟩

/-- Steps over the next significant line and everything before it. -/
def next (c : Cursor) : Option Line × Cursor :=
  match (c.lines.drop c.pos).findIdx? (·.isSignificant) with
  | some k => (c.lines[c.pos + k]?, ⟨c.lines, c.pos + k + 1, c.pos⟩)
  | none => (none, ⟨c.lines, c.lines.length, c.pos⟩)

/-- Steps over the next line, whatever it is. -/
def nextRaw (c : Cursor) : Option Line × Cursor :=
  match c.lines[c.pos]? with
  | some l => (some l, ⟨c.lines, c.pos + 1, c.pos⟩)
  | none => (none, ⟨c.lines, c.pos, c.pos⟩)

/-- Takes back the last step. -/
def unread (c : Cursor) : Cursor :=
  ⟨c.lines, c.mark, c.mark⟩

/-- Shows the next significant line and stays where it is. -/
def peek (c : Cursor) : Option Line × Cursor :=
  (c.next.1, c.next.2.unread)

inductive Move
  | next
  | nextRaw
  | peek
  | unread
  deriving DecidableEq, Repr

/-- Makes a move: what it shows, where it shows something, and the place after it. -/
def step (c : Cursor) : Move → Option Line × Cursor
  | .next => c.next
  | .nextRaw => c.nextRaw
  | .peek => c.peek
  | .unread => (none, c.unread)

/-- What the moves show, one after another. -/
def run (c : Cursor) : List Move → List (Option Line)
  | [] => []
  | m :: ms => (c.step m).1 :: (c.step m).2.run ms

end Cursor

end WorkflowLint
