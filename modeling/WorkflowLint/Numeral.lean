/-!
Whole numbers in decimal notation, and the ones among them that fit a machine word. The main
statements say which texts are numbers and that the words are equal to what they are made of.
-/
namespace WorkflowLint.Numeral

def digitValue (c : Char) : Nat :=
  c.toNat - '0'.toNat

def valueOf (digits : List Char) : Nat :=
  digits.foldl (fun n c => 10 * n + digitValue c) 0

/-- The number that a text of one or more decimal digits spells. -/
def unsigned? (cs : List Char) : Option Nat :=
  if cs ≠ [] ∧ cs.all Char.isDigit then some (valueOf cs) else none

/-- The number that a text spells with digits and at most one sign before them. -/
def signed? : List Char → Option Int
  | '-' :: cs => (unsigned? cs).map fun n => -(n : Int)
  | '+' :: cs => (unsigned? cs).map fun n => (n : Int)
  | cs => (unsigned? cs).map fun n => (n : Int)

/-- The signed word of 64 bits that equals `i`, if one does. -/
def int64? (i : Int) : Option Int64 :=
  if Int64.minValue.toInt ≤ i ∧ i ≤ Int64.maxValue.toInt then some (Int64.ofInt i) else none

/-- The unsigned word of 64 bits that equals `i`, if one does. -/
def uint64? (i : Int) : Option UInt64 :=
  if 0 ≤ i ∧ i < UInt64.size then some (UInt64.ofNat i.toNat) else none

theorem unsigned?_eq_some_iff {cs : List Char} {n : Nat} :
    unsigned? cs = some n ↔ cs ≠ [] ∧ cs.all Char.isDigit ∧ valueOf cs = n := by
  simp [unsigned?, and_assoc]

theorem int64?_toInt (w : Int64) : int64? w.toInt = some w := by
  have h := Int64.toInt_le w
  rw [int64?, if_pos ⟨Int64.le_toInt w, by simpa [Int64.toInt_maxValue] using h⟩, Int64.ofInt_toInt]

theorem toInt_of_int64? {i : Int} {w : Int64} (h : int64? i = some w) : w.toInt = i := by
  simp only [int64?] at h
  split at h
  · next hi =>
    cases h
    have hu := hi.2
    rw [Int64.toInt_maxValue] at hu
    exact Int64.toInt_ofInt_of_le hi.1 (by omega)
  · cases h

theorem uint64?_toNat (w : UInt64) : uint64? w.toNat = some w := by
  have h := UInt64.toNat_lt_size w
  simp only [uint64?]
  rw [if_pos (by omega)]
  simp

theorem toNat_of_uint64? {i : Int} {w : UInt64} (h : uint64? i = some w) : (w.toNat : Int) = i := by
  simp only [uint64?] at h
  split at h
  · next hi =>
    cases h
    have hs : UInt64.size = 18446744073709551616 := rfl
    rw [UInt64.toNat_ofNat', Nat.mod_eq_of_lt (by omega)]
    omega
  · cases h

example : signed? "-0042".toList = some (-42) ∧ signed? "+".toList = none ∧
    signed? "+-1".toList = none := by decide

end WorkflowLint.Numeral
