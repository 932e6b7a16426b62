import WorkflowLint.FileTree
import WorkflowLint.Proofs.Decoding

/-!
# Encoded text

A text that is encoded as UTF-8 is decoded as itself, so that a file with the bytes of a text reads
as that text.
-/
namespace WorkflowLint

namespace Text.Utf8

variable {b bits low high : Nat} {rest : List UInt8}

theorem toNat_ofNat (h : b < 0x100) : (UInt8.ofNat b).toNat = b := by
  rw [UInt8.toNat_ofNat', Nat.mod_eq_of_lt h]

/-! ## Bytes of one character -/

theorem lead_two (hl : 0xC2 ≤ b) (hh : b < 0xE0) :
    lead b = ([], .within (b - 0xC0) 1 0x80 0xBF) := by
  simp only [lead]
  grind

theorem lead_three (hl : 0xE0 ≤ b) (hh : b < 0xF0) : lead b =
    ([], .within (b - 0xE0) 2 (if b = 0xE0 then 0xA0 else 0x80)
      (if b = 0xED then 0x9F else 0xBF)) := by
  simp only [lead]
  grind

theorem lead_four (hl : 0xF0 ≤ b) (hh : b < 0xF5) : lead b =
    ([], .within (b - 0xF0) 3 (if b = 0xF0 then 0x90 else 0x80)
      (if b = 0xF4 then 0x8F else 0xBF)) := by
  simp only [lead]
  grind

theorem decodeFrom_last (hl : low ≤ b) (hh : b ≤ high) (hb : b < 0x100) :
    decodeFrom (.within bits 1 low high) (UInt8.ofNat b :: rest) =
      Char.ofNat (bits * 64 + (b - 0x80)) :: decodeFrom .idle rest := by
  simp [decodeFrom, step, toNat_ofNat hb, hl, hh]

theorem decodeFrom_next {owed : Nat} (ho : 1 < owed) (hl : low ≤ b) (hh : b ≤ high)
    (hb : b < 0x100) : decodeFrom (.within bits owed low high) (UInt8.ofNat b :: rest) =
      decodeFrom (.within (bits * 64 + (b - 0x80)) (owed - 1) 0x80 0xBF) rest := by
  have hn : ¬owed ≤ 1 := by omega
  simp [decodeFrom, step, toNat_ofNat hb, hl, hh, hn]

theorem decodeFrom_lead {s : State} (h : lead b = ([], s)) (hb : b < 0x100) :
    decodeFrom .idle (UInt8.ofNat b :: rest) = decodeFrom s rest := by
  simp [decodeFrom, step, toNat_ofNat hb, h]

theorem decodeFrom_utf8EncodeChar (c : Char) :
    decodeFrom .idle (String.utf8EncodeChar c ++ rest) = c :: decodeFrom .idle rest := by
  have hv : c.toNat < 0xD800 ∨ 0xDFFF < c.toNat ∧ c.toNat < 0x110000 := c.valid
  have hc : Char.ofNat c.toNat = c := Char.ofNat_toNat c
  have hn : c.val.toNat = c.toNat := rfl
  rw [String.utf8EncodeChar.eq_1, hn]
  generalize c.toNat = n at hv hc
  subst hc
  -- One, two, three or four bytes. What the first one allows next is what leaves out surrogates.
  split
  · rename_i h1
    simp [decodeFrom, step, toNat_ofNat (show n < 0x100 by omega),
      lead_of_lt (show n < 0x80 by omega)]
  · split
    · rename_i h1 h2
      rw [List.cons_append, List.cons_append, List.nil_append,
        decodeFrom_lead (lead_two (by omega) (by omega)) (by omega),
        decodeFrom_last (by omega) (by omega) (by omega)]
      refine congrArg (fun k => Char.ofNat k :: decodeFrom .idle rest) ?_
      omega
    · split
      · rename_i h1 h2 h3
        rw [List.cons_append, List.cons_append, List.cons_append, List.nil_append,
          decodeFrom_lead (lead_three (by omega) (by omega)) (by omega),
          decodeFrom_next (by omega) (by split <;> omega) (by split <;> omega) (by omega),
          decodeFrom_last (by omega) (by omega) (by omega)]
        refine congrArg (fun k => Char.ofNat k :: decodeFrom .idle rest) ?_
        omega
      · rename_i h1 h2 h3
        rw [List.cons_append, List.cons_append, List.cons_append, List.cons_append, List.nil_append,
          decodeFrom_lead (lead_four (by omega) (by omega)) (by omega),
          decodeFrom_next (by omega) (by split <;> omega) (by split <;> omega) (by omega),
          decodeFrom_next (by omega) (by omega) (by omega) (by omega),
          decodeFrom_last (by omega) (by omega) (by omega)]
        refine congrArg (fun k => Char.ofNat k :: decodeFrom .idle rest) ?_
        omega

/-! ## Texts -/

theorem decode_encode (cs : List Char) : decode (encode cs) = cs := by
  rw [decode_eq_decodeFrom, encode]
  induction cs with
  | nil => rfl
  | cons c cs ih => rw [List.flatMap_cons, decodeFrom_utf8EncodeChar, ih]

theorem decode?_encode (cs : List Char) : decode? (encode cs) = some cs := by
  simp only [decode?, decode_encode, if_true]

end Text.Utf8

namespace FileSystem

theorem readText_of_read {s : FileSystem} {path : String} {cs : List Char}
    (h : s.read path = .ok (Text.Utf8.encode cs)) : s.readText path = .ok cs := by
  rw [readText, h]
  simp only [Except.bind, Text.Utf8.decode?_encode]

end FileSystem

end WorkflowLint
