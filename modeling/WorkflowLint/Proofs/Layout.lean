import WorkflowLint.Proofs.Bounds

/-!
# Changes of layout

A document means the same with other line ends, with white space behind its lines, with spaces in
place of the tabs that lines begin with, and further to the right as a whole. Each of these changes
rows so that they are trimmed to the same texts, and moves all texts by the same number of columns.
-/
namespace WorkflowLint

namespace Text

/-! ## Changing a text line by line -/

variable {tabWidth k : Nat} {r r' rest rest' : List Char} {rows rows' : List (List Char)}

/-- The second row says what the first one says, `k` columns further to the right. -/
structure Alike (tabWidth k : Nat) (r r' : List Char) : Prop where
  trim_eq : trim r' = trim r
  width_eq : trim r ≠ [] → Line.width tabWidth r' = Line.width tabWidth r + k
  oneLine : '\n' ∉ r → '\n' ∉ r'

theorem Alike.refl (tabWidth : Nat) (r : List Char) : Alike tabWidth 0 r r :=
  ⟨rfl, fun _ => rfl, id⟩

end Text

/-! ## Documents -/

namespace Workflow

open Text

variable {tabWidth k : Nat} {rest rest' text : List Char} {rows rows' : List (List Char)}

def tabbed : List Char :=
  "jobs:\n\ta:\n\t\ttimeout-minutes: x".toList

end Workflow

end WorkflowLint
