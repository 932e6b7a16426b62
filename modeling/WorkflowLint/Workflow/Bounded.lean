import WorkflowLint.Workflow.Document

/-!
Reading within the bounds of a machine. A word of 64 bits counts columns, and no text is longer than
half of what a word can count. A document is read as the workflow that it describes, unless a count
does not fit first: the reading is then abandoned, as it is at a timeout that is no number.
-/
namespace WorkflowLint

/-- The columns from which on a word cannot count them. -/
def Line.columnLimit : Nat :=
  UInt64.size

/-- Whether some line is indented by more columns than can be counted. -/
def Line.overflows (ls : List Line) : Bool :=
  ls.any fun l => columnLimit ≤ l.indent

/-- The length from which on there is no text. -/
def Text.lengthLimit : Nat :=
  UInt64.size / 2

/-- What a reading is abandoned for. -/
inductive Stop
  | malformed (e : SyntaxError)
  /-- A number of columns does not fit into a word, or a row of spaces not into a text. Any machine
  aborts for want of room for the spaces, and one that checks its sums for the columns too. One that
  does not check them goes on with what is left of them in a word, which is not described here. -/
  | overflow
  deriving DecidableEq, Repr

/-! ## Values -/

/-- Whether some line stands too far to the right of the margin for a text. -/
def BlockStyle.overflows (ls : List Line) : Bool :=
  (body ls).any fun l => !l.isBlank && Text.lengthLimit ≤ l.indent - margin ls

/-- Whether the value of a line announces a block scalar that no text can hold. -/
def scalarOverflows (value : List Char) (body : List Line) : Bool :=
  (BlockStyle.of? value).isSome && BlockStyle.overflows body

/-! ## Steps -/

namespace Step

def fieldOverflows (field : Section) : Bool :=
  match field? field.head with
  | some (.run, value) | some (.condition, value) => scalarOverflows value field.body
  | _ => false

/-- Whether the column of the content after a dash does not fit, or what a field says. -/
def overflows (tabWidth : Nat) (item : Section) : Bool :=
  let first := contentLine tabWidth item.head
  (!first.isBlank && Line.columnLimit ≤ first.indent) || (fields tabWidth item).any fieldOverflows

def anyOverflows (tabWidth : Nat) (body : List Line) : Bool :=
  ((Section.cutAll (fun _ => .nested) body).filter (·.head.isItem)).any (overflows tabWidth)

end Step

/-! ## Jobs -/

namespace Job

def fieldOverflows (tabWidth : Nat) (field : Section) : Bool :=
  match field? field.head with
  | some (.condition, value) => scalarOverflows value field.body
  | some (.steps, _) => Step.anyOverflows tabWidth field.body
  | _ => false

def parseField (tabWidth : Nat) (j : Job) (field : Section) : Except Stop Job :=
  if fieldOverflows tabWidth field then .error .overflow
  else (readField tabWidth j field).mapError .malformed

def parse (tabWidth : Nat) (body : List Line) : Except Stop Job :=
  (fields body).foldlM (parseField tabWidth) blank

def parseTo (tabWidth : Nat) (jobs : Table Job) (s : Section) : Except Stop (Table Job) :=
  match Entry.of? s.head.text with
  | some e => (parse tabWidth s.body).map fun job => jobs.insert e.key job
  | none => .ok jobs

def parseAll (tabWidth : Nat) (body : List Line) (jobs : Table Job) : Except Stop (Table Job) :=
  (Section.cutAll (fun _ => .nested) body).foldlM (parseTo tabWidth) jobs

end Job

/-! ## Workflows -/

namespace Workflow

def parseSection (tabWidth : Nat) (w : Workflow) (s : Section) : Except Stop Workflow :=
  match field? s.head with
  | some (.jobs, _) => (Job.parseAll tabWidth s.body w.jobs).map fun jobs => { w with jobs := jobs }
  | _ => (readSection tabWidth w s).mapError .malformed

/-- The workflow that lines describe, all of which are measured before the first one is read. -/
def parseLines (tabWidth : Nat) (ls : List Line) : Except Stop Workflow :=
  if Line.overflows ls then .error .overflow
  else (Section.cutAll extent ls).foldlM (parseSection tabWidth) blank

/-- The workflow that a machine reads in a document, where a tab counts `tabWidth` columns. -/
def parse (tabWidth : Nat) (text : List Char) : Except Stop Workflow :=
  parseLines tabWidth (Line.ofText tabWidth text)

end Workflow

end WorkflowLint
