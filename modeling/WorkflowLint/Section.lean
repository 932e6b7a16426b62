import WorkflowLint.Line

/-!
Sections: a line together with the lines below it that belong to it. Which lines do is said by an
extent; cutting a document into sections is all that reading knows of indentation.
-/
namespace WorkflowLint

/-- How far a line reaches down. -/
inductive Extent
  /-- No further than itself. -/
  | alone
  /-- Over what is deeper, and over list items at its own depth. -/
  | block
  /-- Over what is deeper. -/
  | nested
  /-- Over what is deeper, where comments count like any other text. -/
  | scalar
  deriving DecidableEq, Repr

/-- Whether a line below `head` still belongs to it, given that all lines between do. -/
def Extent.owns (head l : Line) : Extent → Bool
  | alone => false
  | block => !l.isSignificant || head.indent < l.indent || (head.indent == l.indent && l.isItem)
  | nested => !l.isSignificant || head.indent < l.indent
  | scalar => l.isBlank || head.indent < l.indent

structure Section where
  head : Line
  body : List Line
  deriving DecidableEq, Repr

namespace Section

/-- The section that a line opens, and what stands below it. -/
def cut (extent : Line → Extent) (head : Line) (ls : List Line) : Section × List Line :=
  let e := extent head
  (⟨head, ls.takeWhile fun l => e.owns head l⟩, ls.dropWhile fun l => e.owns head l)

theorem length_cut_le (extent : Line → Extent) (head : Line) (ls : List Line) :
    (cut extent head ls).2.length ≤ ls.length :=
  (List.dropWhile_suffix _).length_le

/-- Cuts lines into sections, from the first significant line on. -/
def cutAll (extent : Line → Extent) : List Line → List Section
  | [] => []
  | l :: ls =>
    if l.isSignificant then (cut extent l ls).1 :: cutAll extent (cut extent l ls).2
    else cutAll extent ls
termination_by ls => ls.length
decreasing_by
  · exact Nat.lt_succ_of_le (length_cut_le extent l ls)
  · exact Nat.lt_succ_self _

/-- The sections that are not deeper than the first one. -/
def level (ss : List Section) : List Section :=
  match ss with
  | [] => []
  | first :: _ => ss.filter fun s => s.head.indent ≤ first.head.indent

end Section

end WorkflowLint
