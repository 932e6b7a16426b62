import WorkflowLint.Text.Blank

/-!
Entries `key: value`, and what a written value means: one pair of quotes around it is taken off,
and a comment after it is dropped.
-/
namespace WorkflowLint

/-- A key, and the value written after its colon. -/
structure Entry where
  key : String
  value : List Char
  deriving DecidableEq

namespace Entry

/-- A text without the quotes that stand at both of its ends. -/
def unquote (cs : List Char) : List Char :=
  match cs with
  | q :: rest =>
    if (q = '"' ∨ q = '\'') ∧ rest.getLast? = some q then rest.dropLast else cs
  | [] => []

/-- What stands before and after the last `q` in a text, if one is there. -/
def splitAtLast (q : Char) (cs : List Char) : Option (List Char × List Char) :=
  match cs.reverse.dropWhile (· ≠ q) with
  | [] => none
  | _ :: before => some (before.reverse, (cs.reverse.takeWhile (· ≠ q)).reverse)

/-- The text before the first ` #`. -/
def beforeComment : List Char → List Char
  | [] => []
  | c :: cs => if c = ' ' ∧ cs.head? = some '#' then [] else c :: beforeComment cs

/-- Whether nothing but white space, and perhaps a comment, is written. -/
def isVoid (cs : List Char) : Bool :=
  let rest := Text.trim cs
  rest.isEmpty || rest.head? == some '#'

/-- The value that a text writes. A quoted value may hold anything up to its closing quote; text
after that other than a comment makes the quotes part of the value. -/
def clean (raw : List Char) : List Char :=
  let cs := Text.trim raw
  match cs with
  | [] => []
  | q :: rest =>
    if q = '#' then []
    else if q = '"' ∨ q = '\'' then
      match splitAtLast q rest with
      | some (inner, after) => if isVoid after then inner else cs
      | none => cs
    else Text.trimEnd (beforeComment cs)

/-- The entry in a line of text, split at the first colon; a key must not be empty. -/
def of? (text : List Char) : Option Entry :=
  match text.dropWhile (· ≠ ':') with
  | [] => none
  | _ :: value =>
    let key := unquote (Text.trim (text.takeWhile (· ≠ ':')))
    if key.isEmpty then none else some ⟨String.ofList key, clean value⟩

example : of? "'on': \"a#b\" # note".toList = some ⟨"on", "a#b".toList⟩ := by decide

end Entry

end WorkflowLint
