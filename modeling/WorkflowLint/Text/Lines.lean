/-!
Cutting a text into lines at its newlines. A carriage return before a newline belongs to the line
end. A text that ends with a newline has no further, empty line.
-/
namespace WorkflowLint.Text

/-- A line without the carriage return of its line end. -/
def dropReturn (line : List Char) : List Char :=
  if line.getLast? = some '\r' then line.dropLast else line

/-- The lines of a text, without their line ends. -/
def lines (cs : List Char) : List (List Char) :=
  let pieces := cs.splitOn '\n'
  let unfinished := pieces.getLast?.filter (· ≠ [])
  pieces.dropLast.map dropReturn ++ unfinished.toList

/-- The first line of a text, empty where there is none. -/
def firstLine (cs : List Char) : List Char :=
  (lines cs).head?.getD []

example : lines "a\r\n\nb\r".toList = ["a".toList, [], "b\r".toList] := by decide

end WorkflowLint.Text
