import WorkflowLint.Line

/-!
Block scalars: a text of several lines under a `|` or `>`, indented deeper than its key. Literal
style keeps the line breaks, folded style writes one between two lines of a paragraph as a space.
-/
namespace WorkflowLint

inductive BlockStyle
  | literal
  | folded
  deriving DecidableEq, Repr

namespace BlockStyle

/-- The style that a value announces. Hints on chomping and indentation may follow the sign. -/
def of? : List Char → Option BlockStyle
  | [] => none
  | c :: hints =>
    if hints.all fun h => h == '-' || h == '+' || h.isDigit then
      if c = '|' then some literal else if c = '>' then some folded else none
    else none

/-- What joins two lines of the text. -/
def joint (style : BlockStyle) (above below : List Char) : Char :=
  if style = folded ∧ above ≠ [] ∧ below ≠ [] then ' ' else '\n'

def join (style : BlockStyle) : List (List Char) → List Char
  | [] => []
  | [row] => row
  | above :: below :: rows => above ++ style.joint above below :: join style (below :: rows)

/-- The lines up to the last one that is not blank. -/
def body (ls : List Line) : List Line :=
  (ls.reverse.dropWhile (·.isBlank)).reverse

/-- The least indentation of a line that is not blank. -/
def margin (ls : List Line) : Nat :=
  ((ls.filter (!·.isBlank)).map (·.indent)).min?.getD 0

/-- A line as it stands to the right of the margin. It may be too far for a text, which
`Workflow.parse` is abandoned for. -/
def row (margin : Nat) (l : Line) : List Char :=
  if l.isBlank then [] else List.replicate (l.indent - margin) ' ' ++ l.text

/-- The text that the lines under the sign write. -/
def text (style : BlockStyle) (ls : List Line) : List Char :=
  style.join ((body ls).map (row (margin ls)))

end BlockStyle

end WorkflowLint
