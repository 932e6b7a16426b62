/-!
JSON values, as far as their text tells them apart: numbers keep their spelling, and objects the
order of their members, of which several may have one name.
-/
namespace WorkflowLint

inductive Json
  | null
  | bool (b : Bool)
  | number (literal : String)
  | string (s : String)
  | array (items : List Json)
  | object (members : List (String × Json))
  /-- A string with half of a surrogate pair, or an object with such a name: well formed, but no
  text. -/
  | unreadable

namespace Json

def ofNat (n : Nat) : Json :=
  number (toString n)

def ofInt (i : Int) : Json :=
  number (toString i)

def ofStrings (ss : List String) : Json :=
  array (ss.map string)

/-- A string, or null where there is none. -/
def ofString? : Option String → Json
  | some s => string s
  | none => null

end Json

end WorkflowLint
