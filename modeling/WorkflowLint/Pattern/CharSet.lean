import WorkflowLint.Pattern.CharTable
import WorkflowLint.Text.Blank
import WorkflowLint.Text.Lowercase

/-!
Sets of characters as patterns write them. A set stays as it is written, so that sets can be
compared; the main statements say that membership follows the operations.
-/
namespace WorkflowLint.Pattern

inductive CharSet
  /-- The characters of some ranges, ends included. -/
  | ranges (rs : List (Char × Char))
  | digit
  | space
  | word
  | greek
  | complement (s : CharSet)
  | union (s t : CharSet)
  | inter (s t : CharSet)
  /-- The characters that differ from one of the set in case alone. -/
  | folded (s : CharSet)
  deriving DecidableEq, Repr

/-- The characters that the runs map to the code point `n`. -/
def unshifted (table : List Text.CaseShift) (n : Nat) : List Char :=
  table.filterMap fun s =>
    let source := ((n : Int) - s.offset).toNat
    if s.covers source ∧ (source : Int) + s.offset = n then some (Char.ofNat source) else none

/-- The characters that agree with `c` once case is folded. -/
def caseVariants (c : Char) : List Char :=
  let f := Text.CaseShift.apply Text.foldingShifts c
  f :: unshifted Text.foldingShifts f.toNat

namespace CharSet

def contains : CharSet → Char → Bool
  | ranges rs, c => rs.any fun r => r.1 ≤ c && c ≤ r.2
  | digit, c => Text.inRanges digitRanges c.toNat
  | space, c => Text.isBlank c
  | word, c => Text.inRanges wordRanges c.toNat
  | greek, c => Text.inRanges greekRanges c.toNat
  | complement s, c => !s.contains c
  | union s t, c => s.contains c || t.contains c
  | inter s t, c => s.contains c && t.contains c
  | folded s, c => (caseVariants c).any s.contains

instance : Membership Char CharSet := ⟨fun s c => s.contains c⟩

instance (c : Char) (s : CharSet) : Decidable (c ∈ s) :=
  inferInstanceAs (Decidable (s.contains c = true))

def empty : CharSet :=
  ranges []

def singleton (c : Char) : CharSet :=
  ranges [(c, c)]

/-- What is in the first set and not in the second. -/
def diff (s t : CharSet) : CharSet :=
  inter s (complement t)

/-- What is in exactly one of two sets. -/
def symmDiff (s t : CharSet) : CharSet :=
  union (diff s t) (diff t s)

theorem mem_ranges {rs : List (Char × Char)} {c : Char} :
    c ∈ ranges rs ↔ ∃ r ∈ rs, r.1 ≤ c ∧ c ≤ r.2 := by
  simp [Membership.mem, contains]

theorem mem_singleton {c d : Char} : d ∈ singleton c ↔ d = c := by
  simp only [singleton, mem_ranges, List.mem_cons, List.not_mem_nil, or_false, exists_eq_left]
  exact ⟨fun h => Char.le_antisymm h.2 h.1, fun h => h ▸ ⟨Char.le_refl _, Char.le_refl _⟩⟩

theorem mem_complement {s : CharSet} {c : Char} : c ∈ complement s ↔ ¬c ∈ s := by
  simp [Membership.mem, contains]

theorem mem_union {s t : CharSet} {c : Char} : c ∈ union s t ↔ c ∈ s ∨ c ∈ t := by
  simp [Membership.mem, contains]

theorem mem_inter {s t : CharSet} {c : Char} : c ∈ inter s t ↔ c ∈ s ∧ c ∈ t := by
  simp [Membership.mem, contains]

end CharSet

end WorkflowLint.Pattern
