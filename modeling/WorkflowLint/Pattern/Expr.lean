import WorkflowLint.Pattern.CharSet

/-!
Regular expressions and the search for a match. Of the matches that begin at a place, the one
preferred is the first in the order in which the expression writes its choices; the search takes
the first place that has a match. An expression is run on a text character by character: its leaves
are the choices that it has at a place, most preferred first. The main statement is that the quick
look over the whole text, which the search begins with, changes no match.
-/
namespace WorkflowLint.Pattern

/-- Conditions on the characters before and after a place. -/
inductive Anchor
  | textStart
  | textEnd
  | lineStart
  | lineEnd
  | wordBoundary
  | noWordBoundary
  deriving DecidableEq, Repr

/-- A place in a text, known by the characters next to it. -/
structure Place where
  before : Option Char
  after : Option Char

def Anchor.holds (p : Place) : Anchor → Bool
  | textStart => p.before.isNone
  | textEnd => p.after.isNone
  | lineStart => p.before.all (· == '\n')
  | lineEnd => p.after.all (· == '\n')
  | wordBoundary => p.before.any CharSet.word.contains != p.after.any CharSet.word.contains
  | noWordBoundary => p.before.any CharSet.word.contains == p.after.any CharSet.word.contains

inductive Expr
  | empty
  | char (s : CharSet)
  | anchor (a : Anchor)
  | seq (e f : Expr)
  /-- Prefers the first of two choices. -/
  | alt (e f : Expr)
  /-- One round or more. Where it is greedy, it prefers further rounds to none. -/
  | plus (greedy : Bool) (e : Expr)
  /-- Any number of further rounds, each of which takes a character. -/
  | more (greedy : Bool) (e : Expr)
  deriving DecidableEq, Repr

namespace Expr

def opt (greedy : Bool) (e : Expr) : Expr :=
  if greedy then alt e empty else alt empty e

def star (greedy : Bool) (e : Expr) : Expr :=
  opt greedy (plus greedy e)

/-- Exactly `n` rounds, and then something else. -/
def repeatThen : Nat → Expr → Expr → Expr
  | 0, _, rest => rest
  | n + 1, e, rest => seq e (repeatThen n e rest)

def upTo (greedy : Bool) : Nat → Expr → Expr
  | 0, _ => empty
  | n + 1, e => opt greedy (seq e (upTo greedy n e))

def atLeast (greedy : Bool) (least : Nat) (e : Expr) : Expr :=
  match least with
  | 0 => star greedy e
  | n + 1 => repeatThen n e (plus greedy e)

def between (greedy : Bool) (least most : Nat) (e : Expr) : Expr :=
  repeatThen least e (upTo greedy (most - least) e)

/-- One of several choices, the first one preferred. -/
def oneOf : List Expr → Expr
  | [] => empty
  | [e] => e
  | e :: es => alt e (oneOf es)

def inOrder : List Expr → Expr
  | [] => empty
  | [e] => e
  | e :: es => seq e (inOrder es)

end Expr

/-! ## Choices at a place -/

/-- What an expression may do next: end here, or take a character and go on. -/
inductive Leaf
  | done
  | take (s : CharSet) (rest : Expr)
  deriving DecidableEq, Repr

namespace Leaf

/-- The choices of two lists. To end here needs to be chosen only once. -/
def append (ls ms : List Leaf) : List Leaf :=
  if done ∈ ls then ls ++ ms.filter (· ≠ done) else ls ++ ms

/-- The choices of an expression with another one after it. -/
def andThen (f : Expr) (onDone : List Leaf) : Leaf → List Leaf
  | done => onDone
  | take s .empty => [take s f]
  | take s rest => [take s (.seq rest f)]

end Leaf

/-- The choices that an expression has at a place, most preferred first. -/
def Expr.leaves (p : Place) : Expr → List Leaf
  | empty => [.done]
  | char s => [.take s .empty]
  | anchor a => if a.holds p then [.done] else []
  | seq e f =>
    let first := e.leaves p
    first.flatMap (Leaf.andThen f (if .done ∈ first then f.leaves p else []))
  | alt e f => Leaf.append (e.leaves p) (f.leaves p)
  | plus greedy e => (e.leaves p).flatMap (Leaf.andThen (.more greedy e) [.done])
  | more greedy e =>
    let further := (e.leaves p).flatMap (Leaf.andThen (.more greedy e) [])
    if greedy then further ++ [.done] else .done :: further

/-- The choices after a character, given the place behind it. -/
def Leaf.read (c : Char) (p : Place) : Leaf → List Leaf
  | done => []
  | take s e => if c ∈ s then e.leaves p else []

/-! ## Matching -/

/-- Reads on with a list of choices. `taken` is what was read, last character first, and `best` is
the match that is preferred so far. -/
def run (threads : List Leaf) (taken : List Char) (best : Option (List Char)) (rest : List Char) :
    Option (List Char) :=
  let best := if .done ∈ threads then some taken else best
  match rest, threads.takeWhile (· ≠ .done) with
  | [], _ => best
  | _, [] => best
  | c :: cs, live =>
    run (live.flatMap (Leaf.read c ⟨some c, cs.head?⟩)).eraseDups (c :: taken) best cs

/-- The preferred match at a place, given the character before it. -/
def matchAt? (e : Expr) (before : Option Char) (cs : List Char) : Option (List Char) :=
  (run (e.leaves ⟨before, cs.head?⟩) [] none cs).map List.reverse

/-- The first match in a text, given the character before it. -/
def findFrom? (e : Expr) (before : Option Char) (cs : List Char) : Option (List Char) :=
  match matchAt? e before cs with
  | some m => some m
  | none =>
    match cs with
    | [] => none
    | c :: cs => findFrom? e (some c) cs

/-- Whether a match begins here or further on, or one of the choices in `threads` leads to a match.
All places are looked at in one go. -/
def occursFrom (e : Expr) (threads : List Leaf) (before : Option Char) : List Char → Bool
  | [] => .done ∈ threads ++ e.leaves ⟨before, none⟩
  | c :: cs =>
    let threads := (threads ++ e.leaves ⟨before, some c⟩).eraseDups
    .done ∈ threads || occursFrom e (threads.flatMap (Leaf.read c ⟨some c, cs.head?⟩)) (some c) cs

/-- The first match in a text. A text without one is read only once. -/
def find? (e : Expr) (cs : List Char) : Option (List Char) :=
  if occursFrom e [] none cs then findFrom? e none cs else none

/-- Whether the expression matches a text from end to end. -/
def matchesAll (e : Expr) (cs : List Char) : Bool :=
  (matchAt? (.seq e (.anchor .textEnd)) none cs).isSome

/-! ## The search -/

theorem occursFrom_of_run {e : Expr} {threads more : List Leaf} {taken cs m : List Char}
    {before : Option Char} (h : run threads taken none cs = some m)
    (hs : threads ⊆ more ++ e.leaves ⟨before, cs.head?⟩) : occursFrom e more before cs = true := by
  induction cs generalizing threads more taken before with
  | nil =>
    by_cases hd : Leaf.done ∈ threads
    · exact decide_eq_true (hs hd)
    · simp [run, hd] at h
  | cons c cs ih =>
    simp only [occursFrom, Bool.or_eq_true, decide_eq_true_eq, List.mem_eraseDups]
    by_cases hd : Leaf.done ∈ threads
    · exact .inl (hs hd)
    · unfold run at h
      simp only [if_neg hd] at h
      split at h
      · next heq => cases heq
      · cases h
      · next d ds live hcs _ =>
        cases hcs
        refine .inr (ih h fun next hnext => List.mem_append_left _ ?_)
        obtain ⟨k, hk, hn⟩ := List.mem_flatMap.mp (List.mem_eraseDups.mp hnext)
        exact List.mem_flatMap.mpr
          ⟨k, List.mem_eraseDups.mpr (hs ((List.takeWhile_prefix _).subset hk)), hn⟩

theorem occursFrom_of_matchAt? {e : Expr} {threads : List Leaf} {before : Option Char}
    {cs m : List Char} (h : matchAt? e before cs = some m) :
    occursFrom e threads before cs = true := by
  obtain ⟨_, hr, _⟩ := Option.map_eq_some_iff.mp h
  exact occursFrom_of_run hr (List.subset_append_right _ _)

theorem occursFrom_of_findFrom? {e : Expr} {threads : List Leaf} {before : Option Char}
    {cs m : List Char} (h : findFrom? e before cs = some m) :
    occursFrom e threads before cs = true := by
  induction cs generalizing threads before with
  | nil =>
    unfold findFrom? at h
    split at h
    · next hm => exact occursFrom_of_matchAt? hm
    · cases h
  | cons c cs ih =>
    unfold findFrom? at h
    split at h
    · next hm => exact occursFrom_of_matchAt? hm
    · simp only [occursFrom, ih h, Bool.or_true]

/-- The first match is the one at the first place that has one. -/
theorem find?_eq_findFrom? (e : Expr) (cs : List Char) : find? e cs = findFrom? e none cs := by
  rw [find?]
  split
  · rfl
  · next h =>
    match hm : findFrom? e none cs with
    | none => rfl
    | some m => exact absurd (occursFrom_of_findFrom? hm) h

end WorkflowLint.Pattern
