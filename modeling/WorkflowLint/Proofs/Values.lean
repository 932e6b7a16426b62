import Mathlib.Data.List.Chain
import WorkflowLint.Proofs.Scripts
import WorkflowLint.Workflow.Document

/-!
# Values that are read back

Keys, quoted texts and numbers as they are written on one line, and the collections that are written
below a key: each is read back as what it was written for.
-/
namespace WorkflowLint

open Text

/-! ## Keys -/

namespace Text

variable {key : String} {value : List Char}

theorem isBlank_of_isKeyChar {c : Char} (h : IsKeyChar c) : isBlank c = false := by
  have hn : c.toNat = 45 ∨ c.toNat = 46 ∨ 48 ≤ c.toNat ∧ c.toNat ≤ 122 := by
    rcases h with h | rfl | rfl | rfl
    · change (decide (65 ≤ c.val ∧ c.val ≤ 90) || (decide (97 ≤ c.val) && decide (c.val ≤ 122)) ||
        (decide (48 ≤ c.val) && decide (c.val ≤ 57))) = true at h
      simp only [Bool.or_eq_true, Bool.and_eq_true, decide_eq_true_eq, UInt32.le_iff_toNat_le,
        UInt32.reduceToNat] at h
      have hv : c.toNat = c.val.toNat := rfl
      omega
    all_goals decide
  unfold isBlank
  generalize c.toNat = n at hn
  simp only [Bool.or_eq_false_iff, Bool.and_eq_false_iff, decide_eq_false_iff_not, beq_eq_false_iff_ne]
  omega

theorem IsKey.not_mem (h : IsKey key) {c : Char} (hc : ¬IsKeyChar c) : c ∉ key.toList :=
  fun hm => hc (h.chars c hm)

/-- A text that begins with a key, and ends with no white space, can stand on its own. -/
theorem IsKey.isHead_append (h : IsKey key) {cs : List Char}
    (hl : ∃ c, cs.getLast? = some c ∧ isBlank c = false) (hn : '\n' ∉ cs) :
    IsHead (key.toList ++ cs) ∧ (key.toList ++ cs).head? ≠ some '-' := by
  obtain ⟨k, ks, hk⟩ := List.exists_cons_of_ne_nil h.nonempty
  have hkey : IsKeyChar k := h.chars k (by simp [hk])
  obtain ⟨c, hc, hb⟩ := hl
  have hd : some k ≠ some '-' := by simpa [hk] using h.noDash
  refine ⟨⟨⟨⟨k, by simp [hk], isBlank_of_isKeyChar hkey⟩, ⟨c, by simp [hc], hb⟩⟩, ?_, ?_⟩, ?_⟩
  · rw [hk]
    rintro ⟨⟩
    exact absurd hkey (by decide)
  · simp [hn, h.not_mem (c := '\n') (by decide)]
  · rwa [hk]

theorem IsKey.isHead_header (h : IsKey key) :
    IsHead (header key) ∧ (header key).head? ≠ some '-' :=
  h.isHead_append ⟨':', rfl, by decide⟩ (by simp)

theorem IsKey.isHead_entry (h : IsKey key) (hl : ∃ c, value.getLast? = some c ∧ isBlank c = false)
    (hn : '\n' ∉ value) : IsHead (entry key value) ∧ (entry key value).head? ≠ some '-' := by
  refine h.isHead_append ?_ (by simp [hn])
  obtain ⟨c, hc, hb⟩ := hl
  exact ⟨c, by simp [List.getLast?_cons, hc], hb⟩

theorem getLast?_quoted (s : String) : (quoted s).getLast? = some '"' :=
  List.getLast?_concat

theorem not_mem_quoted {s : String} (h : '\n' ∉ s.toList) : '\n' ∉ quoted s := by
  simp [quoted, h]

/-! ## Entries -/

theorem isTight_of_forall {cs : List Char} (hn : cs ≠ []) (h : ∀ c ∈ cs, isBlank c = false) :
    IsTight cs := by
  obtain ⟨c, hc⟩ := Option.ne_none_iff_exists'.mp (mt List.head?_eq_none_iff.mp hn)
  obtain ⟨d, hd⟩ := Option.ne_none_iff_exists'.mp (mt List.getLast?_eq_none_iff.mp hn)
  exact ⟨⟨c, hc, h c (List.mem_of_head? hc)⟩, ⟨d, hd, h d (List.mem_of_getLast? hd)⟩⟩

theorem trim_cons_space (cs : List Char) : trim (' ' :: cs) = trim cs := by
  rw [trim, trimStart_cons, if_pos isBlank_space, trim]

theorem IsKey.unquote_eq (h : IsKey key) : Entry.unquote key.toList = key.toList := by
  obtain ⟨k, ks, hk⟩ := List.exists_cons_of_ne_nil h.nonempty
  have hkey : IsKeyChar k := h.chars k (by simp [hk])
  have hq : ¬(k = '"' ∨ k = '\'') := by
    rintro (rfl | rfl) <;> exact absurd hkey (by decide)
  rw [hk, Entry.unquote, if_neg fun hh => hq hh.1]

theorem of?_key_append (h : IsKey key) (cs : List Char) :
    Entry.of? (key.toList ++ ':' :: cs) = some ⟨key, Entry.clean cs⟩ := by
  have hc : ∀ c ∈ key.toList, (decide (c ≠ ':')) = true := fun c hm =>
    decide_eq_true fun he => absurd (h.chars c hm) (he ▸ by decide)
  have ht := isTight_of_forall h.nonempty fun c hm => isBlank_of_isKeyChar (h.chars c hm)
  rw [Entry.of?, List.dropWhile_append_of_pos hc, List.takeWhile_append_of_pos hc]
  simp [trim, ht.trimStart_eq, ht.trimEnd_eq, h.unquote_eq, h.nonempty]

theorem of?_header (h : IsKey key) : Entry.of? (header key) = some ⟨key, []⟩ :=
  of?_key_append h []

theorem of?_entry (h : IsKey key) :
    Entry.of? (entry key value) = some ⟨key, Entry.clean (' ' :: value)⟩ :=
  of?_key_append h (' ' :: value)

theorem clean_congr {cs ds : List Char} (h : trim cs = trim ds) :
    Entry.clean cs = Entry.clean ds := by
  rw [Entry.clean, Entry.clean, h]

theorem clean_cons_space (cs : List Char) : Entry.clean (' ' :: cs) = Entry.clean cs :=
  clean_congr (trim_cons_space cs)

theorem isTight_quoted (s : String) : IsTight (quoted s) :=
  ⟨⟨'"', rfl, by decide⟩, '"', getLast?_quoted s, by decide⟩

theorem clean_row_quoted (depth : Nat) (s : String) :
    Entry.clean (row depth (quoted s)) = s.toList := by
  have hs : Entry.splitAtLast '"' (s.toList ++ ['"']) = some (s.toList, []) := by
    simp [Entry.splitAtLast]
  rw [Entry.clean, (isTight_quoted s).trim_row]
  simp only [quoted, List.cons_append, hs]
  rfl

theorem of?_entry_quoted (h : IsKey key) (s : String) :
    Entry.of? (entry key (quoted s)) = some ⟨key, s.toList⟩ := by
  have hc : Entry.clean (' ' :: quoted s) = s.toList := clean_row_quoted 1 s
  rw [of?_entry h, hc]

section Comments

variable {cs : List Char}

/-- No space in the text has the mark of a comment behind it. -/
def NoComment (cs : List Char) : Prop :=
  cs.IsChain fun c d => ¬(c = ' ' ∧ d = '#')

instance (cs : List Char) : Decidable (NoComment cs) :=
  inferInstanceAs (Decidable (List.IsChain _ _))

theorem noComment_of_forall (h : ∀ c ∈ cs, c ≠ ' ') : NoComment cs := by
  induction cs with
  | nil => exact .nil
  | cons c cs ih =>
      obtain ⟨hc, hs⟩ := List.forall_mem_cons.mp h
      exact List.isChain_cons.mpr ⟨fun _ _ he => hc he.1, ih hs⟩

theorem NoComment.beforeComment_eq (h : NoComment cs) : Entry.beforeComment cs = cs := by
  induction cs with
  | nil => rfl
  | cons c cs ih =>
      obtain ⟨hc, hs⟩ := List.isChain_cons.mp h
      rw [Entry.beforeComment, if_neg fun he => hc '#' he.2 ⟨he.1, rfl⟩, ih hs]

/-- A text that neither begins with a quote nor has a comment is its own value. -/
theorem clean_eq_self (ht : trim cs = cs) (hn : NoComment cs)
    (hm : cs.head? ∉ [some '#', some '"', some '\'']) : Entry.clean cs = cs := by
  cases cs with
  | nil => rfl
  | cons c cs =>
      simp only [List.head?_cons, List.mem_cons, Option.some_inj, List.not_mem_nil, or_false,
        not_or] at hm
      have he := (isTight_of_trim_eq (List.cons_ne_nil c cs) ht).trimEnd_eq
      rw [Entry.clean, ht]
      simp only [if_neg hm.1, if_neg (not_or.mpr hm.2), hn.beforeComment_eq, he]

/-- A text without white space that begins with neither a quote nor a comment is its own value. -/
theorem clean_of_forall (hb : ∀ c ∈ cs, isBlank c = false)
    (hh : ∀ c ∈ cs, c ≠ '#' ∧ c ≠ '"' ∧ c ≠ '\'') : Entry.clean (' ' :: cs) = cs := by
  rw [clean_cons_space]
  refine clean_eq_self ?_ (noComment_of_forall fun c hc he => ?_) ?_
  · by_cases hn : cs = []
    · rw [hn, trim_nil]
    · exact (isTight_of_forall hn hb).trim_eq
  · have hs := hb c hc
    rw [he] at hs
    exact absurd hs (by decide)
  · cases cs with
    | nil => simp
    | cons c cs => simpa using hh c List.mem_cons_self

end Comments

end Text

/-! ## Numbers -/

namespace Numeral

theorem unsigned?_repr (n : Nat) : unsigned? n.repr.toList = some n := by
  rw [Nat.toList_repr]
  refine unsigned?_eq_some_iff.mpr ⟨Nat.toDigits_ne_nil, ?_, Nat.ofDigitChars_ten_toDigits⟩
  exact List.all_eq_true.mpr fun c hc => Nat.isDigit_of_mem_toDigits (by decide) (by decide) hc

theorem isDigit_of_mem_repr {n : Nat} {c : Char} (h : c ∈ n.repr.toList) : c.isDigit = true := by
  rw [Nat.toList_repr] at h
  exact Nat.isDigit_of_mem_toDigits (by decide) (by decide) h

theorem repr_ne_nil (n : Nat) : n.repr.toList ≠ [] := by
  rw [Nat.toList_repr]
  exact Nat.toDigits_ne_nil

theorem minus_not_mem_repr (n : Nat) : '-' ∉ n.repr.toList := fun h =>
  absurd (isDigit_of_mem_repr h) (by decide)

theorem plus_not_mem_repr (n : Nat) : '+' ∉ n.repr.toList := fun h =>
  absurd (isDigit_of_mem_repr h) (by decide)

theorem signed?_repr (n : Nat) : signed? n.repr.toList = some (n : Int) := by
  unfold signed?
  split
  · rename_i cs he
    exact absurd (he ▸ List.mem_cons_self) (minus_not_mem_repr n)
  · rename_i cs he
    exact absurd (he ▸ List.mem_cons_self) (plus_not_mem_repr n)
  · rw [unsigned?_repr]
    rfl

theorem toList_toString (i : Int) : (toString i).toList =
    if 0 ≤ i then i.toNat.repr.toList else '-' :: (-i).toNat.repr.toList := by
  rw [Int.toString_eq_repr, Int.repr_eq_if]
  split
  · rfl
  · rw [String.toList_append]
    rfl

/-- A number is read back from its digits. -/
theorem signed?_toString (i : Int) : signed? (toString i).toList = some i := by
  rw [toList_toString]
  split
  · rw [signed?_repr, Int.toNat_of_nonneg ‹_›]
  · have hi : -((-i).toNat : Int) = i := by omega
    rw [signed?, unsigned?_repr]
    exact congrArg some hi

theorem forall_mem_toString {i : Int} {c : Char} (h : c ∈ (toString i).toList) : IsKeyChar c := by
  have hd : ∀ n : Nat, c ∈ n.repr.toList → IsKeyChar c := fun n hc => by
    refine Or.inl ?_
    rw [Char.isAlphanum, isDigit_of_mem_repr hc, Bool.or_true]
  rw [toList_toString] at h
  split at h
  · exact hd _ h
  · rcases List.mem_cons.mp h with rfl | h
    · exact Or.inr (Or.inr (Or.inl rfl))
    · exact hd _ h

theorem toString_ne_nil (i : Int) : (toString i).toList ≠ [] := by
  rw [toList_toString]
  split
  · exact repr_ne_nil _
  · exact List.cons_ne_nil _ _

/-- The number of minutes that is written on a line is read back. -/
theorem clean_toString (i : Int) :
    Entry.clean (' ' :: (toString i).toList) = (toString i).toList := by
  refine clean_of_forall (fun c hc => isBlank_of_isKeyChar (forall_mem_toString hc)) fun c hc => ?_
  have hk := forall_mem_toString hc
  refine ⟨?_, ?_, ?_⟩ <;> rintro rfl <;> exact absurd hk (by decide)

end Numeral

end WorkflowLint
