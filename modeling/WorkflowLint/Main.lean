import WorkflowLint.CommandLine.Run
import WorkflowLint.FileTree.Json
import WorkflowLint.Json.Reader

/-!
The program. Its arguments are a command line, and the first line of its input is the current folder
that the command line speaks of, as JSON.
-/
namespace WorkflowLint

/-- The tree of files on a line of input. Without a line there are no files. -/
def filesOnLine? (line : String) : Option FileTree :=
  if line.isEmpty then some (.folder none [])
  else (Json.ofText? line.toList).bind FileTree.ofJson?

end WorkflowLint

open WorkflowLint in
def main (arguments : List String) : IO UInt32 := do
  let line ← (← IO.getStdin).getLine
  match filesOnLine? line with
  | none =>
    IO.eprintln "Error: the first line of the input is no tree of files"
    return 2
  | some files =>
    let ending := CommandLine.run (.around files) arguments
    IO.print ending.output
    if let some trouble := ending.trouble then
      IO.eprintln ("Error: " ++ trouble)
    return UInt32.ofNat ending.exitCode
