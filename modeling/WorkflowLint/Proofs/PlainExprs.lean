import WorkflowLint.Proofs.OneLine.Matches

/-!
# Words, choices and repeated characters

An expression without anchors matches the same texts wherever they stand. For words, choices of
words, and characters that may be missing or repeat, these are the texts that one would write down.
The search takes the first place of a text from which the expression matches.
-/
namespace WorkflowLint.Pattern

variable {e : Expr} {es : List Expr} {s : CharSet} {g : Bool} {n i : Nat}
  {m cs before : List Char} {b a : Option Char}

/-! ## Words and choices -/

/-- The characters of a text, one after another. -/
def Expr.word (cs : List Char) : Expr :=
  inOrder (cs.map fun c => char (.singleton c))

theorem inOrder_cons_matches_iff : (Expr.inOrder (e :: es)).Matches b m a ↔
    ∃ x y, m = x ++ y ∧ e.Matches b x (y.head?.or a) ∧
      (Expr.inOrder es).Matches (x.getLast?.or b) y a := by
  cases es with
  | nil =>
      simp only [Expr.inOrder, empty_matches_iff]
      constructor
      · exact fun h => ⟨m, [], (List.append_nil m).symm, h, rfl⟩
      · rintro ⟨x, y, rfl, h, rfl⟩
        rwa [List.append_nil]
  | cons => exact seq_matches_iff

theorem word_matches_iff : (Expr.word cs).Matches b m a ↔ m = cs := by
  induction cs generalizing b m with
  | nil => exact empty_matches_iff
  | cons c cs ih =>
      rw [Expr.word, List.map_cons, inOrder_cons_matches_iff]
      unfold Expr.word at ih
      simp only [ih, char_matches_iff, CharSet.mem_singleton, exists_eq_left]
      constructor
      · rintro ⟨_, _, rfl, rfl, rfl⟩
        rfl
      · exact fun h => ⟨[c], cs, h, rfl, rfl⟩

theorem oneOf_matches_iff (h : es ≠ []) :
    (Expr.oneOf es).Matches b m a ↔ ∃ e ∈ es, e.Matches b m a := by
  induction es with
  | nil => exact absurd rfl h
  | cons e es ih =>
      cases es with
      | nil => simp [Expr.oneOf]
      | cons f es =>
          rw [Expr.oneOf, alt_matches_iff, ih (List.cons_ne_nil f es)]
          · simp only [List.mem_cons, exists_eq_or_imp]
          · exact List.cons_ne_nil f es

theorem words_matches_iff {words : List String} (h : words ≠ []) :
    (Expr.oneOf (words.map fun w => .word w.toList)).Matches b m a ↔ ∃ w ∈ words, m = w.toList := by
  rw [oneOf_matches_iff (mt List.map_eq_nil_iff.mp h)]
  simp only [List.mem_map, exists_exists_and_eq_and, word_matches_iff]

theorem opt_matches_iff : (Expr.opt g e).Matches b m a ↔ m = [] ∨ e.Matches b m a := by
  cases g <;> simp [Expr.opt, alt_matches_iff, empty_matches_iff, or_comm]

/-! ## Repeated characters -/

theorem opt_char_matches_iff : (Expr.opt g (.char s)).Matches b m a ↔
    m.length ≤ 1 ∧ ∀ c ∈ m, c ∈ s := by
  rw [opt_matches_iff, char_matches_iff]
  match m with
  | [] => simp
  | [c] => simp
  | c :: d :: m => simp

theorem more_char_matches_iff : (Expr.more g (.char s)).Matches b m a ↔ ∀ c ∈ m, c ∈ s := by
  induction m generalizing b with
  | nil => exact iff_of_true .stop (List.forall_mem_nil _)
  | cons c m ih =>
      rw [more_matches_iff, List.forall_mem_cons]
      simp only [reduceCtorEq, false_or, char_matches_iff]
      constructor
      · rintro ⟨x, y, he, -, ⟨d, hd, rfl⟩, hy⟩
        obtain ⟨rfl, rfl⟩ := List.cons.inj he
        exact ⟨hd, ih.mp hy⟩
      · rintro ⟨hc, hm⟩
        exact ⟨[c], m, rfl, by simp, ⟨c, hc, rfl⟩, ih.mpr hm⟩

theorem plus_char_matches_iff : (Expr.plus g (.char s)).Matches b m a ↔
    1 ≤ m.length ∧ ∀ c ∈ m, c ∈ s := by
  simp only [plus_matches_iff, char_matches_iff, more_char_matches_iff]
  constructor
  · rintro ⟨x, y, rfl, ⟨c, hc, rfl⟩, hy⟩
    exact ⟨by simp, List.forall_mem_cons.mpr ⟨hc, hy⟩⟩
  · rintro ⟨hl, hm⟩
    obtain ⟨c, m, rfl⟩ := List.exists_cons_of_length_pos hl
    obtain ⟨hc, hm⟩ := List.forall_mem_cons.mp hm
    exact ⟨[c], m, rfl, ⟨c, hc, rfl⟩, hm⟩

/-- Rounds of one character each in front of at least `i` more. -/
theorem repeatThen_char_matches_iff
    (h : ∀ {b m}, e.Matches b m a ↔ i ≤ m.length ∧ ∀ c ∈ m, c ∈ s) :
    (Expr.repeatThen n (.char s) e).Matches b m a ↔ n + i ≤ m.length ∧ ∀ c ∈ m, c ∈ s := by
  induction n generalizing b m with
  | zero => rw [Expr.repeatThen, h, Nat.zero_add]
  | succ n ih =>
      simp only [Expr.repeatThen, seq_matches_iff, char_matches_iff, ih]
      constructor
      · rintro ⟨x, y, rfl, ⟨c, hc, rfl⟩, hl, hy⟩
        exact ⟨by simp; omega, List.forall_mem_cons.mpr ⟨hc, hy⟩⟩
      · rintro ⟨hl, hm⟩
        obtain ⟨c, m, rfl⟩ := List.exists_cons_of_length_pos (by omega : 0 < m.length)
        obtain ⟨hc, hm⟩ := List.forall_mem_cons.mp hm
        rw [List.length_cons] at hl
        exact ⟨[c], m, rfl, ⟨c, hc, rfl⟩, by omega, hm⟩

theorem atLeast_char_matches_iff : (Expr.atLeast g n (.char s)).Matches b m a ↔
    n ≤ m.length ∧ ∀ c ∈ m, c ∈ s := by
  cases n with
  | zero =>
      simp only [Expr.atLeast, Expr.star, opt_matches_iff, plus_char_matches_iff]
      cases m <;> simp
  | succ n => exact repeatThen_char_matches_iff plus_char_matches_iff

/-! ## The first place -/

/-- The expression matches `m` from an index on. -/
def Expr.MatchesAt (e : Expr) (cs : List Char) (i : Nat) (m : List Char) : Prop :=
  ∃ after, cs.drop i = m ++ after ∧ e.Matches (cs.take i).getLast? m after.head?

theorem occurs_iff_exists_matchesAt : e.Occurs cs ↔ ∃ i m, e.MatchesAt cs i m := by
  constructor
  · rintro ⟨before, m, after, rfl, hm⟩
    exact ⟨before.length, m, after, by simp, by simpa using hm⟩
  · rintro ⟨i, m, after, he, hm⟩
    refine ⟨cs.take i, m, after, ?_, hm⟩
    rw [List.append_assoc, ← he, List.take_append_drop]

theorem isSome_matchAt?_iff_exists_matchesAt :
    (matchAt? e before.getLast? cs).isSome ↔ ∃ m, e.MatchesAt (before ++ cs) before.length m := by
  simp [isSome_matchAt?_iff, Expr.MatchesAt]

theorem matchesAt_of_matchAt? (h : matchAt? e before.getLast? cs = some m) :
    e.MatchesAt (before ++ cs) before.length m := by
  obtain ⟨after, he, hm⟩ := of_matchAt? h
  exact ⟨after, by rw [List.drop_left, he], by rwa [List.take_left]⟩

/-- The search goes on from the text that has been read. -/
theorem first_of_findFrom? (h : findFrom? e before.getLast? cs = some m) :
    ∃ i, before.length ≤ i ∧ e.MatchesAt (before ++ cs) i m ∧
      ∀ j, before.length ≤ j → j < i → ∀ n, ¬e.MatchesAt (before ++ cs) j n := by
  induction cs generalizing before with
  | nil =>
      unfold findFrom? at h
      split at h
      · rename_i hm
        cases h
        exact ⟨_, Nat.le_refl _, matchesAt_of_matchAt? hm, fun j hle hlt => by omega⟩
      · cases h
  | cons c cs ih =>
      unfold findFrom? at h
      split at h
      · rename_i hm
        cases h
        exact ⟨_, Nat.le_refl _, matchesAt_of_matchAt? hm, fun j hle hlt => by omega⟩
      · rename_i hn
        have hread : before ++ c :: cs = (before ++ [c]) ++ cs := by simp
        have hlast : (before ++ [c]).getLast? = some c := List.getLast?_concat
        dsimp only at h
        rw [← hlast] at h
        obtain ⟨i, hi, hm, hfirst⟩ := ih h
        rw [← hread] at hm hfirst
        rw [List.length_append, List.length_singleton] at hi hfirst
        refine ⟨i, by omega, hm, fun j hj hlt n hjn => ?_⟩
        rcases Nat.eq_or_lt_of_le hj with rfl | hj
        · have hs := isSome_matchAt?_iff_exists_matchesAt.mpr ⟨n, hjn⟩
          rw [hn] at hs
          cases hs
        · exact hfirst j hj hlt n hjn

/-- What is found is matched from some place on, and nothing is matched from an earlier one. -/
theorem first_of_find? (h : find? e cs = some m) :
    ∃ i, e.MatchesAt cs i m ∧ ∀ j < i, ∀ n, ¬e.MatchesAt cs j n := by
  have hf : findFrom? e ([] : List Char).getLast? cs = some m := find?_eq_findFrom? e cs ▸ h
  obtain ⟨i, -, hm, hfirst⟩ := first_of_findFrom? hf
  exact ⟨i, hm, fun j => hfirst j (Nat.zero_le j)⟩

end WorkflowLint.Pattern
