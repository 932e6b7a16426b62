import WorkflowLint.BlockScalar
import WorkflowLint.Workflow

/-!
# Writing a workflow in block style

How a workflow is written out: a level deeper by a fixed number of spaces, one line for each value,
and a block below a key for each collection. A layout says how deep a level is, how steps stand
behind their dashes, and how blank lines of a script look. Which workflows can be written so is
said level by level.
-/
namespace WorkflowLint

structure Layout where
  /-- The spaces of one level. -/
  unit : Nat
  /-- From the dash of a step to its fields. -/
  gap : Nat
  /-- Whether the first field of a step stands on the line of the dash. -/
  behindDash : Bool
  /-- Whether blank lines of a script are indented. -/
  padBlank : Bool
  unit_pos : 0 < unit
  gap_pos : 0 < gap
  two_le_gap : behindDash = true → 2 ≤ gap

namespace Text

/-- A text at a depth. -/
def row (depth : Nat) (cs : List Char) : List Char :=
  List.replicate depth ' ' ++ cs

def quoted (s : String) : List Char :=
  '"' :: s.toList ++ ['"']

def header (key : String) : List Char :=
  key.toList ++ [':']

def entry (key : String) (value : List Char) : List Char :=
  key.toList ++ ':' :: ' ' :: value

/-- A text of rows, each with a newline at its end. -/
def unlines (rows : List (List Char)) : List Char :=
  rows.flatMap (· ++ ['\n'])

end Text

open Text

/-- A line to be written at some depth, and the rows below it, which have their depth already. -/
structure Block where
  head : List Char
  body : List (List Char)

namespace Block

def rows (depth : Nat) (b : Block) : List (List Char) :=
  row depth b.head :: b.body

def line (key : String) (value : List Char) : Block :=
  ⟨entry key value, []⟩

/-- A value that may be absent. -/
def value (key : String) (value : Option String) : List Block :=
  value.toList.map fun s => line key (quoted s)

/-- A collection, unless there is nothing in it. -/
def collection (key : String) (rows : List (List Char)) : List Block :=
  if rows = [] then [] else [⟨header key, rows⟩]

def mapping (depth : Nat) (t : Table String) : List (List Char) :=
  t.entries.map fun e => row depth (entry e.1 (quoted e.2))

def list (depth : Nat) (ns : List String) : List (List Char) :=
  ns.map fun n => row depth ('-' :: ' ' :: quoted n)

end Block

namespace Layout

variable (o : Layout)

/-! ## Triggers -/

/-- The lines of a setting, none if it is empty. -/
def settingLines (setting : String) : List (List Char) :=
  if setting = "" then [] else setting.toList.splitOn '\n'

def event (depth : Nat) (name setting : String) : Block :=
  ⟨header name, (settingLines setting).map (row (depth + o.unit))⟩

def events (depth : Nat) (t : Table String) : List (List Char) :=
  (t.entries.map fun e => o.event depth e.1 e.2).flatMap (Block.rows depth)

/-! ## Steps -/

def scriptRow (depth : Nat) (cs : List Char) : List Char :=
  if cs = [] ∧ o.padBlank = false then [] else row depth cs

/-- A command on the line of its key, or below it if it has several lines. -/
def command (depth : Nat) (s : String) : Block :=
  if '\n' ∈ s.toList then
    ⟨entry "run" ['|'], (s.toList.splitOn '\n').map (o.scriptRow (depth + o.unit))⟩
  else Block.line "run" (quoted s)

def stepBlocks (depth : Nat) (s : Step) : List Block :=
  Block.value "name" s.name ++ Block.value "uses" s.uses ++ s.run.toList.map (o.command depth) ++
    Block.value "if" s.condition ++
    Block.collection "with" (Block.mapping (depth + o.unit) s.arguments) ++
    Block.collection "env" (Block.mapping (depth + o.unit) s.env)

/-- An item of a list whose fields are the given blocks. -/
def item (depth : Nat) : List Block → Block
  | [] => ⟨['-'], []⟩
  | b :: bs =>
    if o.behindDash then
      ⟨'-' :: row (o.gap - 1) b.head, b.body ++ bs.flatMap (Block.rows (depth + o.gap))⟩
    else ⟨['-'], (b :: bs).flatMap (Block.rows (depth + o.gap))⟩

def step (depth : Nat) (s : Step) : Block :=
  o.item depth (o.stepBlocks (depth + o.gap) s)

def steps (depth : Nat) (ss : List Step) : List (List Char) :=
  (ss.map (o.step depth)).flatMap (Block.rows depth)

/-! ## Jobs and workflows -/

def jobBlocks (depth : Nat) (j : Job) : List Block :=
  Block.value "name" j.name ++ [Block.line "runs-on" (quoted j.runsOn)] ++
    Block.collection "needs" (Block.list (depth + o.unit) j.needs) ++
    Block.collection "permissions" (Block.mapping (depth + o.unit) j.permissions) ++
    Block.value "if" j.condition ++
    [Block.line "timeout-minutes" (toString j.timeoutMinutes.toInt).toList] ++
    Block.collection "env" (Block.mapping (depth + o.unit) j.env) ++
    Block.collection "steps" (o.steps (depth + o.unit) j.steps)

def job (depth : Nat) (id : String) (j : Job) : Block :=
  ⟨header id, (o.jobBlocks (depth + o.unit) j).flatMap (Block.rows (depth + o.unit))⟩

def jobs (depth : Nat) (t : Table Job) : List (List Char) :=
  (t.entries.map fun e => o.job depth e.1 e.2).flatMap (Block.rows depth)

def blocks (w : Workflow) : List Block :=
  [Block.line "name" (quoted w.name)] ++ Block.collection "on" (o.events o.unit w.triggers) ++
    Block.collection "permissions" (Block.mapping o.unit w.permissions) ++
    Block.collection "env" (Block.mapping o.unit w.env) ++
    Block.collection "jobs" (o.jobs o.unit w.jobs)

def render (w : Workflow) : List Char :=
  unlines ((o.blocks w).flatMap (Block.rows 0))

/-- One space a level, and every dash on a line of its own. -/
def narrow : Layout where
  unit := 1
  gap := 1
  behindDash := false
  padBlank := false
  unit_pos := by decide
  gap_pos := by decide
  two_le_gap := by decide

/-- Two spaces a level, and the first field of a step behind its dash. -/
def wide : Layout where
  unit := 2
  gap := 2
  behindDash := true
  padBlank := true
  unit_pos := by decide
  gap_pos := by decide
  two_le_gap := by decide

end Layout

/-! ## What can be written -/

namespace Text

def IsKeyChar (c : Char) : Prop :=
  c.isAlphanum = true ∨ c = '_' ∨ c = '-' ∨ c = '.'

instance : DecidablePred IsKeyChar := fun _ => inferInstanceAs (Decidable (_ ∨ _))

/-- A name that needs no quotes. -/
structure IsKey (key : String) : Prop where
  nonempty : key.toList ≠ []
  noDash : key.toList.head? ≠ some '-'
  chars : ∀ c ∈ key.toList, IsKeyChar c

instance (key : String) : Decidable (IsKey key) :=
  decidable_of_iff (key.toList ≠ [] ∧ key.toList.head? ≠ some '-' ∧
    key.toList.all (decide <| IsKeyChar ·) = true)
    ⟨fun h => ⟨h.1, h.2.1, fun c hc => of_decide_eq_true (List.all_eq_true.mp h.2.2 c hc)⟩,
      fun h => ⟨h.nonempty, h.noDash,
        List.all_eq_true.mpr fun c hc => decide_eq_true (h.chars c hc)⟩⟩

/-- A text on one line, which is not empty. -/
structure IsWord (s : String) : Prop where
  nonempty : s ≠ ""
  oneLine : '\n' ∉ s.toList

instance (s : String) : Decidable (IsWord s) :=
  decidable_of_iff (s ≠ "" ∧ '\n' ∉ s.toList) ⟨fun h => ⟨h.1, h.2⟩, fun h => ⟨h.nonempty, h.oneLine⟩⟩

/-- Lines that are indented by spaces alone, of which the last is not blank and some line that is
not blank is not indented. -/
structure IsScript (lines : List (List Char)) : Prop where
  start : ∀ l ∈ lines, trimStart l = l.dropWhile (· = ' ')
  stop : ∀ l ∈ lines, trimEnd l = l
  last : lines.getLast? ≠ some []
  flush : ∃ l ∈ lines, l ≠ [] ∧ l.head? ≠ some ' '

instance (lines : List (List Char)) : Decidable (IsScript lines) :=
  decidable_of_iff ((∀ l ∈ lines, trimStart l = l.dropWhile (· = ' ')) ∧
    (∀ l ∈ lines, trimEnd l = l) ∧ lines.getLast? ≠ some [] ∧
      ∃ l ∈ lines, l ≠ [] ∧ l.head? ≠ some ' ')
    ⟨fun h => ⟨h.1, h.2.1, h.2.2.1, h.2.2.2⟩, fun h => ⟨h.start, h.stop, h.last, h.flush⟩⟩

/-- A script, or a text on one line that announces none. -/
def IsCommand (s : String) : Prop :=
  s ≠ "" ∧
    if '\n' ∈ s.toList then IsScript (s.toList.splitOn '\n') else BlockStyle.of? s.toList = none

instance : DecidablePred IsCommand := fun _ => inferInstanceAs (Decidable (_ ∧ _))

/-- A condition on one line, which announces no block. -/
def IsCondition (s : String) : Prop :=
  IsWord s ∧ BlockStyle.of? s.toList = none

instance : DecidablePred IsCondition := fun _ => inferInstanceAs (Decidable (_ ∧ _))

/-- Lines without white space around them, none of which is blank or a comment. -/
def IsSetting (s : String) : Prop :=
  ∀ l ∈ Layout.settingLines s, l ≠ [] ∧ trim l = l ∧ l.head? ≠ some '#'

instance : DecidablePred IsSetting := fun s =>
  inferInstanceAs (Decidable (∀ l ∈ Layout.settingLines s, _))

end Text

def Table.Printable (t : Table String) : Prop :=
  ∀ e ∈ t.entries, IsKey e.1 ∧ '\n' ∉ e.2.toList

instance (t : Table String) : Decidable t.Printable :=
  inferInstanceAs (Decidable (∀ e ∈ t.entries, _))

structure Step.Printable (s : Step) : Prop where
  name : ∀ name ∈ s.name, IsWord name
  uses : ∀ uses ∈ s.uses, IsWord uses
  run : ∀ run ∈ s.run, IsCommand run
  condition : ∀ cond ∈ s.condition, IsCondition cond
  arguments : s.arguments.Printable
  env : s.env.Printable

instance (s : Step) : Decidable s.Printable :=
  decidable_of_iff ((∀ name ∈ s.name, IsWord name) ∧ (∀ uses ∈ s.uses, IsWord uses) ∧
    (∀ run ∈ s.run, IsCommand run) ∧ (∀ cond ∈ s.condition, IsCondition cond) ∧
      s.arguments.Printable ∧ s.env.Printable)
    ⟨fun ⟨a, b, c, d, e, f⟩ => ⟨a, b, c, d, e, f⟩, fun ⟨a, b, c, d, e, f⟩ => ⟨a, b, c, d, e, f⟩⟩

structure Job.Printable (j : Job) : Prop where
  name : ∀ name ∈ j.name, IsWord name
  runsOn : '\n' ∉ j.runsOn.toList
  needs : ∀ n ∈ j.needs, IsWord n
  permissions : j.permissions.Printable
  condition : ∀ cond ∈ j.condition, IsCondition cond
  env : j.env.Printable
  steps : ∀ s ∈ j.steps, s.Printable

instance (j : Job) : Decidable j.Printable :=
  decidable_of_iff ((∀ name ∈ j.name, IsWord name) ∧ '\n' ∉ j.runsOn.toList ∧
    (∀ n ∈ j.needs, IsWord n) ∧ j.permissions.Printable ∧ (∀ cond ∈ j.condition, IsCondition cond) ∧
      j.env.Printable ∧ ∀ s ∈ j.steps, s.Printable)
    ⟨fun ⟨a, b, c, d, e, f, g⟩ => ⟨a, b, c, d, e, f, g⟩,
      fun ⟨a, b, c, d, e, f, g⟩ => ⟨a, b, c, d, e, f, g⟩⟩

structure Workflow.Printable (w : Workflow) : Prop where
  name : '\n' ∉ w.name.toList
  triggers : ∀ e ∈ w.triggers.entries, IsKey e.1 ∧ IsSetting e.2
  permissions : w.permissions.Printable
  env : w.env.Printable
  jobs : ∀ e ∈ w.jobs.entries, IsKey e.1 ∧ e.2.Printable

instance (w : Workflow) : Decidable w.Printable :=
  decidable_of_iff ('\n' ∉ w.name.toList ∧ (∀ e ∈ w.triggers.entries, IsKey e.1 ∧ IsSetting e.2) ∧
    w.permissions.Printable ∧ w.env.Printable ∧ ∀ e ∈ w.jobs.entries, IsKey e.1 ∧ e.2.Printable)
    ⟨fun ⟨a, b, c, d, e⟩ => ⟨a, b, c, d, e⟩, fun ⟨a, b, c, d, e⟩ => ⟨a, b, c, d, e⟩⟩

end WorkflowLint
