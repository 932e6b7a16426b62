import WorkflowLint.BlockScalar
import WorkflowLint.Flow
import WorkflowLint.Numeral
import WorkflowLint.Section
import WorkflowLint.Workflow

/-!
Reading a workflow from the lines of its document. Each level of the model names its keys; a key
says how far its line reaches down, and what the line and its body add to the model. Whatever the
model has no place for is passed over, so that one thing alone can be wrong: a job timeout that is
no number.
-/
namespace WorkflowLint

/-- A timeout that is not a whole number of 64 bits. -/
structure SyntaxError where
  line : Nat
  value : List Char
  deriving DecidableEq, Repr

def SyntaxError.message (e : SyntaxError) : String :=
  "timeout-minutes is not an integer: '" ++ String.ofList e.value ++ "'"

/-! ## Values -/

/-- A text, unless it is empty. -/
def nonEmpty (cs : List Char) : Option String :=
  if cs = [] then none else some (String.ofList cs)

/-- How far the line of a value reaches that may be a block scalar. -/
def Extent.ofValue (value : List Char) : Extent :=
  if (BlockStyle.of? value).isSome then .scalar else .alone

/-- How far the line of a list reaches that may be written in it. -/
def Extent.ofList (value : List Char) : Extent :=
  if value = [] then .block else .alone

/-- The value of a line, or the block scalar that it announces. -/
def scalar (value : List Char) (body : List Line) : List Char :=
  match BlockStyle.of? value with
  | some style => style.text body
  | none => value

def itemContent (text : List Char) : List Char :=
  match text with
  | '-' :: cs => Text.trimStart cs
  | cs => Text.trimStart cs

/-- The items of a block list that are not empty. -/
def items (body : List Line) : List String :=
  (body.filter fun l => l.isSignificant && l.isItem).filterMap fun l =>
    nonEmpty (Entry.clean (itemContent l.text))

/-- The lines of a block that are not deeper than its first one. -/
def entryLines (body : List Line) : List Line :=
  (Section.level (Section.cutAll (fun _ => .alone) body)).map (·.head)

/-- Adds the entries of a mapping, in flow form on its line and in block form below. -/
def mapping (value : List Char) (body : List Line) (table : Table String) : Table String :=
  let inline := (Flow.map? value).getD []
  let below := (entryLines body).filterMap fun l => Entry.of? l.text
  (table.insertMany inline).insertMany (below.map fun e => (e.key, String.ofList e.value))

/-! ## Triggers -/

def appendLine (text : String) (line : List Char) : String :=
  if text = "" then String.ofList line else text ++ "\n" ++ String.ofList line

/-- The event that a line under `on` names, with its setting. -/
def event (l : Line) : String × String :=
  if l.isItem then (String.ofList (Entry.clean (itemContent l.text)), "")
  else
    match Entry.of? l.text with
    | some e => (e.key, String.ofList e.value)
    | none => (String.ofList (Entry.clean l.text), "")

/-- The events read so far, and the one whose settings may follow. -/
structure Events where
  table : Table String
  current : Option String

namespace Events

/-- Adds a line of settings to the current event. -/
def addSetting (es : Events) (l : Line) : Events :=
  match es.current with
  | none => es
  | some name =>
    match es.table.get? name with
    | none => es
    | some text => { es with table := es.table.insert name (appendLine text l.text) }

/-- Adds an event; a line that names none changes nothing. -/
def addEvent (es : Events) (l : Line) : Events :=
  let (name, setting) := event l
  if name = "" then es else ⟨es.table.insert name setting, some name⟩

/-- Reads a line of a block whose events stand at the given depth. -/
def addLine (depth : Nat) (es : Events) (l : Line) : Events :=
  if depth < l.indent then es.addSetting l else es.addEvent l

end Events

/-- Adds the events of an `on` section. -/
def triggers (value : List Char) (body : List Line) (table : Table String) : Table String :=
  let inline := if value = [] then [] else Flow.names value
  let table := table.insertMany (inline.map (·, ""))
  match body.filter (·.isSignificant) with
  | [] => table
  | first :: rest => ((first :: rest).foldl (Events.addLine first.indent) ⟨table, none⟩).table

/-! ## Steps -/

inductive Step.Key
  | name
  | uses
  | run
  | condition
  | arguments
  | env

def Step.Key.ofName? : String → Option Step.Key
  | "name" => some name
  | "uses" => some uses
  | "run" => some run
  | "if" => some condition
  | "with" => some arguments
  | "env" => some env
  | _ => none

def Step.Key.extent (value : List Char) : Step.Key → Extent
  | name | uses => .alone
  | run | condition => .ofValue value
  | arguments | env => .block

/-- What a field of a step sets. -/
def Step.Key.set (value : List Char) (body : List Line) (s : Step) : Step.Key → Step
  | name => { s with name := nonEmpty value }
  | uses => { s with uses := nonEmpty value }
  | run => { s with run := nonEmpty (scalar value body) }
  | condition => { s with condition := nonEmpty (scalar value body) }
  | arguments => { s with arguments := mapping value body s.arguments }
  | env => { s with env := mapping value body s.env }

namespace Step

/-- The field that a line of a step names, with its value. -/
def field? (l : Line) : Option (Key × List Char) :=
  (Entry.of? l.text).bind fun e => (Key.ofName? e.key).map (·, e.value)

def extent (l : Line) : Extent :=
  match field? l with
  | some (key, value) => key.extent value
  | none => .nested

def readField (s : Step) (field : Section) : Step :=
  match field? field.head with
  | some (key, value) => key.set value field.body s
  | none => s

/-- The line that the content after a dash would be, were it on its own. -/
def contentLine (tabWidth : Nat) (dash : Line) : Line :=
  ⟨dash.number, dash.indent + 1 + Line.width tabWidth (dash.text.drop 1), itemContent dash.text⟩

/-- The fields of a step, of which the first may stand behind the dash. -/
def fields (tabWidth : Nat) (item : Section) : List Section :=
  let first := contentLine tabWidth item.head
  if first.text = [] then Section.level (Section.cutAll extent item.body)
  else
    let (field, rest) := Section.cut extent first item.body
    Section.level (field :: Section.cutAll extent rest)

def read (tabWidth : Nat) (item : Section) : Step :=
  (fields tabWidth item).foldl readField blank

/-- The steps of a block: what its items say. -/
def readAll (tabWidth : Nat) (body : List Line) : List Step :=
  ((Section.cutAll (fun _ => .nested) body).filter (·.head.isItem)).map (read tabWidth)

end Step

/-! ## Jobs -/

inductive Job.Key
  | name
  | runsOn
  | timeout
  | condition
  | needs
  | permissions
  | env
  | steps

def Job.Key.ofName? : String → Option Job.Key
  | "name" => some name
  | "runs-on" => some runsOn
  | "timeout-minutes" => some timeout
  | "if" => some condition
  | "needs" => some needs
  | "permissions" => some permissions
  | "env" => some env
  | "steps" => some steps
  | _ => none

def Job.Key.extent (value : List Char) : Job.Key → Extent
  | name | timeout => .alone
  | condition => .ofValue value
  | runsOn | needs => .ofList value
  | permissions | env | steps => .block

namespace Job

/-- The number of minutes that a line gives. -/
def timeout (l : Line) (value : List Char) : Except SyntaxError Int64 :=
  match (Numeral.signed? (Text.trim value)).bind Numeral.int64? with
  | some minutes => .ok minutes
  | none => .error ⟨l.number, value⟩

def needed (value : List Char) (body : List Line) : List String :=
  if value = [] then items body else Flow.names value

def runner (value : List Char) (body : List Line) : String :=
  if value = [] then ", ".intercalate (items body) else String.ofList value

def Key.set (tabWidth : Nat) (head : Line) (value : List Char) (body : List Line) (j : Job) :
    Job.Key → Except SyntaxError Job
  | name => .ok { j with name := nonEmpty value }
  | runsOn => .ok { j with runsOn := runner value body }
  | timeout => (Job.timeout head value).map fun minutes => { j with timeoutMinutes := minutes }
  | condition => .ok { j with condition := nonEmpty (scalar value body) }
  | needs => .ok { j with needs := needed value body }
  | permissions => .ok { j with permissions := mapping value body j.permissions }
  | env => .ok { j with env := mapping value body j.env }
  | steps => .ok { j with steps := Step.readAll tabWidth body }

def field? (l : Line) : Option (Key × List Char) :=
  (Entry.of? l.text).bind fun e => (Key.ofName? e.key).map (·, e.value)

def extent (l : Line) : Extent :=
  match field? l with
  | some (key, value) => key.extent value
  | none => .nested

def readField (tabWidth : Nat) (j : Job) (field : Section) : Except SyntaxError Job :=
  match field? field.head with
  | some (key, value) => key.set tabWidth field.head value field.body j
  | none => .ok j

def fields (body : List Line) : List Section :=
  Section.level (Section.cutAll extent body)

def read (tabWidth : Nat) (body : List Line) : Except SyntaxError Job :=
  (fields body).foldlM (readField tabWidth) blank

/-- Adds the job that a line under `jobs` opens; the last of equal names wins. -/
def addTo (tabWidth : Nat) (jobs : Table Job) (s : Section) : Except SyntaxError (Table Job) :=
  match Entry.of? s.head.text with
  | some e => (read tabWidth s.body).map fun job => jobs.insert e.key job
  | none => .ok jobs

def readAll (tabWidth : Nat) (body : List Line) (jobs : Table Job) :
    Except SyntaxError (Table Job) :=
  (Section.cutAll (fun _ => .nested) body).foldlM (addTo tabWidth) jobs

end Job

/-! ## Workflows -/

inductive Workflow.Key
  | name
  | triggers
  | permissions
  | jobs
  | env

def Workflow.Key.ofName? : String → Option Workflow.Key
  | "name" => some name
  | "on" => some triggers
  | "permissions" => some permissions
  | "jobs" => some jobs
  | "env" => some env
  | _ => none

def Workflow.Key.extent : Workflow.Key → Extent
  | name => .alone
  | triggers | permissions | env => .block
  | jobs => .nested

namespace Workflow

def Key.set (tabWidth : Nat) (value : List Char) (body : List Line) (w : Workflow) :
    Workflow.Key → Except SyntaxError Workflow
  | name => .ok { w with name := String.ofList value }
  | triggers => .ok { w with triggers := WorkflowLint.triggers value body w.triggers }
  | permissions => .ok { w with permissions := mapping value body w.permissions }
  | jobs => (Job.readAll tabWidth body w.jobs).map fun jobs => { w with jobs := jobs }
  | env => .ok { w with env := mapping value body w.env }

def field? (l : Line) : Option (Key × List Char) :=
  (Entry.of? l.text).bind fun e => (Key.ofName? e.key).map (·, e.value)

def extent (l : Line) : Extent :=
  match field? l with
  | some (key, _) => key.extent
  | none => .nested

def readSection (tabWidth : Nat) (w : Workflow) (s : Section) : Except SyntaxError Workflow :=
  match field? s.head with
  | some (key, value) => key.set tabWidth value s.body w
  | none => .ok w

/-- The workflow that the lines of a document describe. -/
def read (tabWidth : Nat) (ls : List Line) : Except SyntaxError Workflow :=
  (Section.cutAll extent ls).foldlM (readSection tabWidth) blank

/-- The workflow that a document describes, where a tab counts `tabWidth` columns, however many they
are. A machine reads the same, as long as it can count them. -/
def ofText (tabWidth : Nat) (text : List Char) : Except SyntaxError Workflow :=
  read tabWidth (Line.ofText tabWidth text)

end Workflow

end WorkflowLint
