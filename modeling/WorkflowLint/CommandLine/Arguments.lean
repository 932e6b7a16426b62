import WorkflowLint.Numeral
import WorkflowLint.Report

/-!
The arguments of the command line. What they ask for is a command, or they are not in order.
-/
namespace WorkflowLint.CommandLine

inductive Format
  | text
  | json
  deriving DecidableEq, Repr

structure CheckRequest where
  paths : List String
  policy : Option String
  tabWidth : Nat
  all : Bool
  glob : String
  format : Format
  deriving DecidableEq, Repr

inductive Command
  | check (request : CheckRequest)
  | info (path : String) (tabWidth : Nat)
  | policy
  | version
  deriving DecidableEq, Repr

/-- The files that are checked in a folder. -/
def defaultGlob : String :=
  "**/*.\x7byml,yaml\x7d"

/-! ## Options -/

/-- The options that a command has: those that stand alone, and those with a value. -/
structure OptionNames where
  flags : List String
  valued : List String

/-- What arguments were sorted into. -/
structure Sorted where
  flags : List String
  values : List (String × String)
  positionals : List String

namespace Sorted

def addFlag (s : Sorted) (name : String) : Option Sorted :=
  if name ∈ s.flags then none else some { s with flags := name :: s.flags }

def addValue (s : Sorted) (name value : String) : Option Sorted :=
  if name ∈ s.values.map (·.1) then none else some { s with values := (name, value) :: s.values }

def addPositional (s : Sorted) (value : String) : Sorted :=
  { s with positionals := s.positionals ++ [value] }

def value? (s : Sorted) (name : String) : Option String :=
  (s.values.find? fun v => v.1 = name).map (·.2)

end Sorted

/-- Whether an argument looks like an option. A single dash does not. -/
def looksLikeOption (argument : String) : Bool :=
  match argument.toList with
  | '-' :: _ :: _ => true
  | _ => false

/-- Sorts the letters behind a single dash. -/
def sortLetters (s : Sorted) : List Char → Option Sorted
  | [] => some s
  | c :: cs => if c = 'v' then (s.addFlag "verbose").bind (sortLetters · cs) else none

/-- Sorts arguments into options and others. Each option may be there once; behind two dashes there
are no more. -/
def sort (names : OptionNames) (s : Sorted) : List String → Option Sorted
  | [] => some s
  | argument :: rest =>
    match argument.toList with
    | ['-', '-'] => some (rest.foldl Sorted.addPositional s)
    | '-' :: '-' :: option =>
      let name := String.ofList (option.takeWhile (· ≠ '='))
      match option.dropWhile (· ≠ '=') with
      | _ :: value =>
        if name ∈ names.valued then
          (s.addValue name (String.ofList value)).bind (sort names · rest)
        else none
      | [] =>
        if name ∈ names.flags then (s.addFlag name).bind (sort names · rest)
        else if name ∈ names.valued then
          match rest with
          | value :: rest =>
            if looksLikeOption value then none
            else (s.addValue name value).bind (sort names · rest)
          | [] => none
        else none
    | '-' :: c :: cs => (sortLetters s (c :: cs)).bind (sort names · rest)
    | _ => sort names (s.addPositional argument) rest

/-! ## Commands -/

/-- A width of columns: digits, perhaps with a plus before them. -/
def width? (text : String) : Option Nat :=
  let digits := match text.toList with
    | '+' :: cs => cs
    | cs => cs
  (Numeral.unsigned? digits).filter (· < UInt64.size)

def Format.ofName? : String → Option Format
  | "text" => some text
  | "json" => some json
  | _ => none

/-- The value of an option, read, or a default where the option is not there. -/
def Sorted.read {α : Type} (s : Sorted) (name : String) (default : α) (f : String → Option α) :
    Option α :=
  match s.value? name with
  | some value => f value
  | none => some default

/-- A path has at least one character. -/
def path? (text : String) : Option String :=
  if text = "" then none else some text

def tabWidth? (s : Sorted) : Option Nat :=
  s.read "tab-width" Options.preset.tabWidth width?

def check? (arguments : List String) : Option Command := do
  let names : OptionNames :=
    ⟨["all", "verbose"], ["policy", "tab-width", "include", "format"]⟩
  let s ← sort names ⟨[], [], []⟩ arguments
  let paths ← s.positionals.mapM path?
  let policy ← s.read "policy" none fun p => (path? p).map some
  let tabWidth ← tabWidth? s
  let format ← s.read "format" .text Format.ofName?
  let glob := (s.value? "include").getD defaultGlob
  if paths = [] then none
  else some (.check ⟨paths, policy, tabWidth, "all" ∈ s.flags, glob, format⟩)

def info? (arguments : List String) : Option Command := do
  let s ← sort ⟨["verbose"], ["tab-width"]⟩ ⟨[], [], []⟩ arguments
  let tabWidth ← tabWidth? s
  match s.positionals with
  | [path] => (path? path).map (.info · tabWidth)
  | _ => none

def policy? (arguments : List String) : Option Command := do
  let s ← sort ⟨["verbose"], []⟩ ⟨[], [], []⟩ arguments
  if s.positionals = [] then some .policy else none

/-- The letters behind a single dash, before the command: whether they ask for the version, and
whether they were in order up to there. -/
def leadingLetters (verbose : Bool) : List Char → Option (Bool ⊕ Command)
  | [] => some (.inl verbose)
  | c :: cs =>
    if c = 'V' then some (.inr .version)
    else if c = 'v' ∧ ¬verbose then leadingLetters true cs
    else none

/-- The command that arguments give, after the options that stand before it. -/
def commandAfter (verbose : Bool) : List String → Option Command
  | [] => none
  | argument :: rest =>
    match argument with
    | "check" => check? rest
    | "info" => info? rest
    | "policy" => policy? rest
    | "--version" => some .version
    | "--verbose" => if verbose then none else commandAfter true rest
    | _ =>
      match argument.toList with
      | '-' :: c :: cs =>
        if c = '-' then none
        else
          match leadingLetters verbose (c :: cs) with
          | some (.inl verbose) => commandAfter verbose rest
          | some (.inr command) => some command
          | none => none
      | _ => none

/-- The command that arguments give, if they are in order. -/
def command? (arguments : List String) : Option Command :=
  commandAfter false arguments

end WorkflowLint.CommandLine
