import WorkflowLint.Entry

/-!
Flow collections: `[a, b]` and `{k: v, l: w}` on one line. They are cut at the commas that stand
outside inner brackets and braces.
-/
namespace WorkflowLint.Flow

/-- The nesting depth behind a character. A closing bracket too many leaves the depth at zero. -/
def depthAfter (depth : Nat) (c : Char) : Nat :=
  if c = '[' ∨ c = '\x7b' then depth + 1
  else if c = ']' ∨ c = '\x7d' then depth - 1
  else depth

/-- Cuts a text at its commas of depth zero, where the text begins at the given depth. -/
def splitFrom (depth : Nat) : List Char → List (List Char)
  | [] => [[]]
  | c :: cs =>
    if c = ',' ∧ depth = 0 then [] :: splitFrom 0 cs
    else (splitFrom (depthAfter depth c) cs).modifyHead (c :: ·)

def split (body : List Char) : List (List Char) :=
  splitFrom 0 body

/-- What stands between an opening first character and a closing last one. -/
def between (opening closing : Char) : List Char → Option (List Char)
  | [] => none
  | c :: cs =>
    if c = opening ∧ cs.getLast? = some closing then some cs.dropLast else none

/-- The items of a flow list that are not empty. -/
def list? (value : List Char) : Option (List String) :=
  (between '[' ']' value).map fun body =>
    ((split body).map Entry.clean).filter (· ≠ []) |>.map String.ofList

/-- The entries of a flow mapping; a part that is no entry is passed over. -/
def map? (value : List Char) : Option (List (String × String)) :=
  (between '\x7b' '\x7d' value).map fun body =>
    (split body).filterMap fun part =>
      (Entry.of? (Text.trim part)).map fun e => (e.key, String.ofList e.value)

/-- The names that a value lists: items of a flow list, keys of a flow mapping, or itself. -/
def names (value : List Char) : List String :=
  match list? value with
  | some items => items
  | none =>
    match map? value with
    | some pairs => pairs.map (·.1)
    | none => [String.ofList value]

example : names "[a, 'b', c]".toList = ["a", "b", "c"] := by decide

end WorkflowLint.Flow
