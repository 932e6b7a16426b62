import WorkflowLint.CommandLine.Arguments
import WorkflowLint.Glob
import WorkflowLint.Outcome
import WorkflowLint.Validator.Load
import WorkflowLint.Workflow.Outline

/-!
Running a command on a file system.
-/
namespace WorkflowLint.CommandLine

/-- Why a command has no result. -/
inductive Trouble
  | failure (f : Failure)
  | file (e : FileError)
  | glob
  | noFiles (glob : String)
  deriving DecidableEq

def Trouble.message : Trouble → String
  | failure f => f.message
  | file e => e.message
  | glob => "error parsing glob"
  | noFiles pattern => "No workflow files found matching '" ++ pattern ++ "'"

/-- How a run ends. -/
structure Ending where
  exitCode : Nat
  output : String
  trouble : Option String
  deriving DecidableEq, Repr

/-- How a run ends that comes to nothing. One that is aborted does not say why in its own words. -/
def Trouble.ending : Trouble → Ending
  | failure .aborted => ⟨101, "", none⟩
  | trouble => ⟨1, "", some trouble.message⟩

/-- Lines of text, each with its line end. -/
def unlines (ls : List String) : String :=
  String.join (ls.map (· ++ "\n"))

def version : String :=
  "flowguard 0.1.0"

def CheckRequest.validator (r : CheckRequest) (s : FileSystem) : Except Trouble Validator := do
  let document ← match r.policy with
    | some path => ((s.readText path).map some).mapError .file
    | none => .ok none
  (Validator.load document).mapError .failure

def CheckRequest.files (r : CheckRequest) (s : FileSystem) : Except Trouble (List Found) :=
  match Glob.ofText? r.glob.toList with
  | none => .error .glob
  | some glob =>
    match s.discover (Glob.covers glob) r.paths with
    | .error e => .error (.file e)
    | .ok [] => .error (.noFiles r.glob)
    | .ok fs => .ok fs

def CheckRequest.outcomes (r : CheckRequest) (s : FileSystem) : Except Trouble (List Outcome) := do
  let v ← r.validator s
  let fs ← r.files s
  let o : Options := ⟨r.tabWidth, Options.preset.maxBytes⟩
  return fs.map (Outcome.ofFile v o r.all)

def Format.print (os : List Outcome) : Format → String
  | text => unlines (Outcome.textLines os)
  | json => unlines [(Json.array (os.map (·.toJson))).pretty]

def workflowAt (s : FileSystem) (path : String) (tabWidth : Nat) : Except Trouble Workflow := do
  let bytes ← (s.read path).mapError .file
  (Workflow.parse tabWidth (Text.Utf8.decode bytes)).mapError (.failure ·.toFailure)

/-- The exit code of a command and what it prints. -/
def Command.run (s : FileSystem) : Command → Except Trouble (Nat × String)
  | check r => (r.outcomes s).map fun os => (Outcome.exitCodeOf os, r.format.print os)
  | info path tabWidth => (workflowAt s path tabWidth).map fun w => (0, unlines w.outline)
  | policy => .ok (0, unlines [Policy.preset.toJson.pretty])
  | version => .ok (0, unlines [CommandLine.version])

/-- Runs the command line on a file system. -/
def run (s : FileSystem) (arguments : List String) : Ending :=
  match command? arguments with
  | none => ⟨2, "", none⟩
  | some c =>
    match c.run s with
    | .ok (code, output) => ⟨code, output, none⟩
    | .error trouble => trouble.ending

end WorkflowLint.CommandLine
