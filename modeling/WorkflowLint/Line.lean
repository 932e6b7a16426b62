import WorkflowLint.Text.Blank
import WorkflowLint.Text.Lines

/-!
The lines of a document. A line knows its number, how far it is indented, and its text without the
white space around it; blank lines and comments carry no meaning of their own.
-/
namespace WorkflowLint

structure Line where
  /-- Counted from 1. -/
  number : Nat
  /-- The width of the spaces and tabs that the line begins with. -/
  indent : Nat
  text : List Char
  deriving DecidableEq, Repr

namespace Line

/-- The width of leading spaces and tabs, where a tab counts `tabWidth` columns. It may be more than a
word can count, which `Workflow.parse` is abandoned for. -/
def width (tabWidth : Nat) : List Char → Nat
  | ' ' :: cs => 1 + width tabWidth cs
  | '\t' :: cs => tabWidth + width tabWidth cs
  | _ => 0

def isBlank (l : Line) : Bool :=
  l.text.isEmpty

def isComment (l : Line) : Bool :=
  l.text.head? == some '#'

/-- Whether the line is neither blank nor a comment. -/
def isSignificant (l : Line) : Bool :=
  !l.isBlank && !l.isComment

/-- Whether the line is an item of a list: a dash alone, or followed by a space or a tab. -/
def isItem (l : Line) : Bool :=
  match l.text with
  | ['-'] => true
  | '-' :: c :: _ => c == ' ' || c == '\t'
  | _ => false

/-- The line with the given number that a document shows as `raw`. -/
def ofRaw (tabWidth number : Nat) (raw : List Char) : Line :=
  ⟨number, width tabWidth raw, Text.trim raw⟩

def ofText (tabWidth : Nat) (text : List Char) : List Line :=
  (Text.lines text).mapIdx fun i raw => ofRaw tabWidth (i + 1) raw

end Line

end WorkflowLint
