import WorkflowLint.Json
import WorkflowLint.Numeral
import WorkflowLint.Table

/-!
Codecs: how values of a type are written as JSON and read from it. Records are read from objects,
which may have members that nobody knows, and from arrays of their fields in order.
-/
namespace WorkflowLint

structure Codec (α : Type) where
  write : α → Json
  read? : Json → Option α

/-- What is written is read back. -/
def Codec.Lawful {α : Type} (c : Codec α) : Prop :=
  ∀ a, c.read? (c.write a) = some a

namespace Codec

variable {α σ : Type}

def string : Codec String where
  write := .string
  read?
    | .string s => some s
    | _ => none

def bool : Codec Bool where
  write := .bool
  read?
    | .bool b => some b
    | _ => none

/-- The whole number that a literal spells. A zero with a sign is none. -/
def whole? (literal : List Char) : Option Int :=
  match literal with
  | '-' :: ds => if ds = ['0'] then none else (Numeral.unsigned? ds).map fun n => -(n : Int)
  | ds => (Numeral.unsigned? ds).map fun n => (n : Int)

def int64 : Codec Int64 where
  write w := .ofInt w.toInt
  read?
    | .number literal => (whole? literal.toList).bind Numeral.int64?
    | _ => none

def uint64 : Codec UInt64 where
  write w := .ofNat w.toNat
  read?
    | .number literal => (whole? literal.toList).bind Numeral.uint64?
    | _ => none

/-- A value that may be missing, and is null then. -/
def optional (c : Codec α) : Codec (Option α) where
  write
    | some a => c.write a
    | none => .null
  read?
    | .null => some none
    | j => (c.read? j).map some

def list (c : Codec α) : Codec (List α) where
  write as := .array (as.map c.write)
  read?
    | .array js => js.mapM c.read?
    | _ => none

/-- A table as an object. Of equal names the last one wins. -/
def table (c : Codec α) : Codec (Table α) where
  write t := .object (t.entries.map fun e => (e.1, c.write e.2))
  read?
    | .object ms => (ms.mapM fun m => (c.read? m.2).map (m.1, ·)).map Table.ofList
    | _ => none

end Codec

/-! ## Records -/

/-- Where the field of a record may be left out. -/
inductive Presence
  | required
  | optional
  /-- In an object, and at the end of an array. -/
  | defaulted
  deriving DecidableEq

/-- A field of a record: its name, and how it is written and set. -/
structure Field (σ : Type) where
  name : String
  presence : Presence
  write : σ → Json
  set? : Json → σ → Option σ

namespace Field

variable {α σ : Type}

def of (name : String) (presence : Presence) (c : Codec α) (get : σ → α) (put : α → σ → σ) :
    Field σ where
  name := name
  presence := presence
  write s := c.write (get s)
  set? j s := (c.read? j).map (put · s)

/-- The fields that the members of an object name, each with its value. -/
def named (fs : List (Field σ)) (ms : List (String × Json)) : List (Field σ × Json) :=
  ms.filterMap fun m => (fs.find? fun f => f.name = m.1).map (·, m.2)

def setAll? (blank : σ) (fs : List (Field σ × Json)) : Option σ :=
  fs.foldlM (fun s f => f.1.set? f.2 s) blank

/-- Reads a record; a field that is left out stays as it is in `blank`. -/
def read? (fs : List (Field σ)) (blank : σ) : Json → Option σ
  | .object ms =>
    let given := named fs ms
    let names := given.map (·.1.name)
    if names.Nodup ∧ ∀ f ∈ fs, f.presence = .required → f.name ∈ names then setAll? blank given
    else none
  | .array js =>
    if js.length ≤ fs.length ∧ ∀ f ∈ fs.drop js.length, f.presence = .defaulted then
      setAll? blank (fs.zip js)
    else none
  | _ => none

def writeAll (fs : List (Field σ)) (s : σ) : Json :=
  .object (fs.map fun f => (f.name, f.write s))

end Field

def Codec.record {σ : Type} (fs : List (Field σ)) (blank : σ) : Codec σ :=
  ⟨Field.writeAll fs, Field.read? fs blank⟩

end WorkflowLint
