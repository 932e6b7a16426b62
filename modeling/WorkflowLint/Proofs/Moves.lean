import WorkflowLint.Proofs.Cursors
import WorkflowLint.Proofs.Numbers

/-!
# Moves of a cursor

What holds of a cursor however it was moved. Its mark is never ahead of it, and of the lines between
the two at most the last one has a meaning. So a step back leads to where the line of that step is
the next one, and a second step back leads nowhere. Every line behind the cursor that has a meaning
was shown by some step, and as long as no step is taken back no line is shown twice.
-/
namespace WorkflowLint.Cursor

/-- The place after some moves. -/
def after (c : Cursor) (ms : List Move) : Cursor :=
  ms.foldl (fun c m => (c.step m).2) c

/-- The lines that the moves step over and show, one after another. -/
def taken (c : Cursor) (ms : List Move) : List Line :=
  (ms.zip (c.run ms)).flatMap fun (m, shown) =>
    if m = .next ∨ m = .nextRaw then shown.toList else []

/-- Where a cursor stands, given the lines that were shown on the way. -/
structure Placed (c : Cursor) (shown : List Line) : Prop where
  mark_le_pos : c.mark ≤ c.pos
  pos_le_length : c.pos ≤ c.lines.length
  passed : ∀ k l, c.mark ≤ k → k + 1 < c.pos → c.lines[k]? = some l → l.isSignificant = false
  mem_shown : ∀ k l, k < c.pos → c.lines[k]? = some l → l.isSignificant = true → l ∈ shown

/-- What can be relied on at a place, whatever the moves that led to it. -/
structure Disciplined (c : Cursor) (shown : List Line) : Prop extends Placed c shown where
  peek : c.peek.1 = c.next.1 ∧ c.peek.2.pos = c.pos
  back : ∀ m l, (c.step m).1 = some l → l.isSignificant = true →
    c.run [m, .unread, .next] = [some l, none, some l]
  backTwice : c.unread.unread = c.unread ∧ c.peek.2.unread = c.peek.2
  rising : ∀ ms, .unread ∉ ms → (c.taken ms).Pairwise (·.number < ·.number)

variable {c d : Cursor} {m : Move} {ms : List Move} {l : Line} {shown : List Line}

theorem after_cons (c : Cursor) (m : Move) (ms : List Move) :
    c.after (m :: ms) = (c.step m).2.after ms :=
  rfl

theorem taken_nil (c : Cursor) : c.taken [] = [] :=
  rfl

theorem taken_cons (c : Cursor) (m : Move) (ms : List Move) :
    c.taken (m :: ms) = c.taken [m] ++ (c.step m).2.taken ms := by
  simp [taken, run]

/-! ## Single moves -/

/-- A step from one place to another that shows a line or nothing. What is shown is the last line
gone over, and no other one has a meaning. -/
structure Advances (c : Cursor) (o : Option Line) (d : Cursor) : Prop where
  lines : d.lines = c.lines
  mark : d.mark = c.pos
  pos_le : c.pos ≤ d.pos
  pos_le_length : d.pos ≤ c.lines.length
  shows : ∀ l ∈ o, ∃ k, c.pos ≤ k ∧ d.pos = k + 1 ∧ c.lines[k]? = some l
  passes : ∀ k l, c.pos ≤ k → k < d.pos → c.lines[k]? = some l → l.isSignificant = true →
    o = some l ∧ d.pos = k + 1

theorem advances_stay (hp : c.pos ≤ c.lines.length) :
    c.Advances none ⟨c.lines, c.pos, c.pos⟩ where
  lines := rfl
  mark := rfl
  pos_le := Nat.le_refl _
  pos_le_length := hp
  shows _ h := by cases h
  passes _ _ hk hlt := absurd hlt (Nat.not_lt.mpr hk)

theorem advances_next (hp : c.pos ≤ c.lines.length) : c.Advances c.next.1 c.next.2 := by
  have hget {k : Nat} {l : Line} (hk : c.pos ≤ k) (hl : c.lines[k]? = some l) :
      (c.lines.drop c.pos)[k - c.pos]? = some l := by
    rw [List.getElem?_drop, Nat.add_sub_cancel' hk, hl]
  cases hf : (c.lines.drop c.pos).findIdx? (·.isSignificant) with
  | none =>
      have hn : c.next = (none, ⟨c.lines, c.lines.length, c.pos⟩) := by rw [next, hf]
      rw [hn]
      refine ⟨rfl, rfl, hp, Nat.le_refl _, fun _ h => (by cases h), fun k l hk _ hl hs => ?_⟩
      have hn := List.findIdx?_eq_none_iff.mp hf l (List.mem_of_getElem? (hget hk hl))
      exact absurd hs (by simp [hn])
  | some j =>
      have hn : c.next = (c.lines[c.pos + j]?, ⟨c.lines, c.pos + j + 1, c.pos⟩) := by rw [next, hf]
      obtain ⟨hj, -, hv⟩ := List.findIdx?_eq_some_iff_getElem.mp hf
      rw [List.length_drop] at hj
      rw [hn]
      refine ⟨rfl, rfl, by simp; omega, by simp; omega,
        fun l hl => ⟨c.pos + j, Nat.le_add_right _ _, rfl, hl⟩, fun k l hk hlt hl hs => ?_⟩
      -- A line with a meaning before the one that is found would have been found.
      have hkj : k = c.pos + j := by
        obtain ⟨_, rfl⟩ := List.getElem?_eq_some_iff.mp (hget hk hl)
        by_contra hne
        exact absurd hs (hv (k - c.pos) (by simp at hlt; omega))
      subst hkj
      exact ⟨hl, rfl⟩

theorem advances_nextRaw (hp : c.pos ≤ c.lines.length) : c.Advances c.nextRaw.1 c.nextRaw.2 := by
  unfold nextRaw
  split
  · rename_i l hl
    refine ⟨rfl, rfl, Nat.le_succ _, (List.getElem?_eq_some_iff.mp hl).1, ?_, ?_⟩
    · intro m hm
      cases hm
      exact ⟨c.pos, Nat.le_refl _, rfl, hl⟩
    · intro k m hk hlt hm _
      obtain rfl : k = c.pos := Nat.le_antisymm (Nat.le_of_lt_succ hlt) hk
      exact ⟨hl.symm.trans hm, rfl⟩
  · exact advances_stay hp

theorem peek_eq (c : Cursor) : c.peek = (c.next.1, ⟨c.lines, c.pos, c.pos⟩) := by
  rw [peek, next]
  split <;> rfl

/-- Every move but a step back is a step onward, or to where the cursor is. -/
theorem advances_step (hp : c.pos ≤ c.lines.length) (hm : m ≠ .unread) :
    ∃ o : Option Line, c.taken [m] = o.toList ∧ c.Advances o (c.step m).2 := by
  cases m with
  | next => exact ⟨c.next.1, by simp [taken, run, step], advances_next hp⟩
  | nextRaw => exact ⟨c.nextRaw.1, by simp [taken, run, step], advances_nextRaw hp⟩
  | peek =>
      refine ⟨none, by simp [taken, run], ?_⟩
      rw [step, peek_eq]
      exact advances_stay hp
  | unread => exact absurd rfl hm

/-- A line that has a meaning is the next one again when the move that showed it is taken back. -/
theorem run_unread_next (h : (c.step m).1 = some l) (hs : l.isSignificant = true) :
    c.run [m, .unread, .next] = [some l, none, some l] := by
  have hn : (c.step m).2.unread.next.1 = some l := by
    rw [next_fst]
    cases m with
    | next =>
        rw [step, ahead_unread_next, ← next_fst]
        exact h
    | nextRaw =>
        obtain ⟨below, ha⟩ := List.head?_eq_some_iff.mp (c.nextRaw_eq.1.symm.trans h)
        rw [step, c.nextRaw_eq.2.2, ha, skim_cons_of_pos hs]
        rfl
    | peek =>
        have ha : c.peek.2.unread.ahead = c.ahead := by
          rw [peek_eq]
          rfl
        rw [step, ha, ← next_fst]
        exact h
    | unread => cases h
  change [(c.step m).1, none, (c.step m).2.unread.next.1] = _
  rw [h, hn]

/-! ## Sequences of moves -/

theorem Placed.advance {o : Option Line} (h : c.Placed shown) (ha : c.Advances o d) :
    d.Placed (shown ++ o.toList) where
  mark_le_pos := ha.mark ▸ ha.pos_le
  pos_le_length := ha.lines ▸ ha.pos_le_length
  passed k l hk hlt hl := by
    rw [ha.mark] at hk
    rw [ha.lines] at hl
    by_contra hs
    have := (ha.passes k l hk (by omega) hl (by simpa using hs)).2
    omega
  mem_shown k l hk hl hs := by
    rw [ha.lines] at hl
    rcases Nat.lt_or_ge k c.pos with hlt | hge
    · exact List.mem_append_left _ (h.mem_shown k l hlt hl hs)
    · exact List.mem_append_right _ (Option.mem_toList.mpr (ha.passes k l hge hk hl hs).1)

theorem Placed.unread (h : c.Placed shown) : c.unread.Placed shown where
  mark_le_pos := Nat.le_refl _
  pos_le_length := Nat.le_trans h.mark_le_pos h.pos_le_length
  passed _ _ hk hlt := absurd (Nat.lt_of_succ_lt hlt) (Nat.not_lt.mpr hk)
  mem_shown k l hk := h.mem_shown k l (Nat.lt_of_lt_of_le hk h.mark_le_pos)

theorem Placed.step (h : c.Placed shown) (m : Move) :
    (c.step m).2.Placed (shown ++ c.taken [m]) := by
  by_cases hm : m = .unread
  · subst hm
    rw [show c.taken [.unread] = [] from rfl, List.append_nil]
    exact h.unread
  · obtain ⟨o, ho, ha⟩ := advances_step h.pos_le_length hm
    rw [ho]
    exact h.advance ha

theorem Placed.after (h : c.Placed shown) (ms : List Move) :
    (c.after ms).Placed (shown ++ c.taken ms) := by
  induction ms generalizing c shown with
  | nil =>
      rw [taken_nil, List.append_nil]
      exact h
  | cons m ms ih =>
      rw [after_cons, taken_cons, ← List.append_assoc]
      exact ih (h.step m)

theorem lines_step (c : Cursor) (m : Move) : (c.step m).2.lines = c.lines := by
  cases m with
  | next =>
      rw [step, next]
      split <;> rfl
  | nextRaw =>
      rw [step, nextRaw]
      split <;> rfl
  | peek => rw [step, peek_eq]
  | unread => rfl

theorem lines_after (c : Cursor) (ms : List Move) : (c.after ms).lines = c.lines := by
  induction ms generalizing c with
  | nil => rfl
  | cons m ms ih => rw [after_cons, ih, lines_step]

section OfText

variable {tabWidth : Nat} {text : List Char}

/-- As long as no step is taken back, what is shown is ahead of all that was shown before. -/
theorem rising_taken (hl : c.lines = Line.ofText tabWidth text) (hp : c.pos ≤ c.lines.length)
    (hu : .unread ∉ ms) :
    (∀ l ∈ c.taken ms, c.pos < l.number) ∧ (c.taken ms).Pairwise (·.number < ·.number) := by
  induction ms generalizing c with
  | nil => exact ⟨List.forall_mem_nil _, .nil⟩
  | cons m ms ih =>
      obtain ⟨hm, hms⟩ := List.ne_and_not_mem_of_not_mem_cons hu
      obtain ⟨o, ho, ha⟩ := advances_step hp hm.symm
      obtain ⟨hlater, hrest⟩ := ih (ha.lines.trans hl) (ha.lines ▸ ha.pos_le_length) hms
      have hnow : ∀ l ∈ o.toList, c.pos < l.number ∧ l.number = (c.step m).2.pos := by
        intro l hm
        obtain ⟨k, hk, hd, hkl⟩ := ha.shows l (Option.mem_toList.mp hm)
        rw [hd, Line.number_of_getElem? (hl ▸ hkl)]
        exact ⟨Nat.lt_succ_of_le hk, rfl⟩
      rw [taken_cons, ho]
      refine ⟨List.forall_mem_append.mpr ⟨fun l hm => (hnow l hm).1, fun l hm =>
        Nat.lt_of_le_of_lt ha.pos_le (hlater l hm)⟩, List.pairwise_append.mpr ⟨?_, hrest, ?_⟩⟩
      · cases o <;> simp
      · intro l hm n hn
        rw [(hnow l hm).2]
        exact hlater n hn

theorem placed_ofText (tabWidth : Nat) (text : List Char) : (ofText tabWidth text).Placed [] where
  mark_le_pos := Nat.le_refl 0
  pos_le_length := Nat.zero_le _
  passed _ _ _ hlt := absurd hlt (Nat.not_lt_zero _)
  mem_shown _ _ hlt := absurd hlt (Nat.not_lt_zero _)

/-- A cursor over a text keeps its lines and its discipline through any moves. -/
theorem disciplined_after (tabWidth : Nat) (text : List Char) (ms : List Move) :
    ((ofText tabWidth text).after ms).lines = Line.ofText tabWidth text ∧
      ((ofText tabWidth text).after ms).Disciplined ((ofText tabWidth text).taken ms) := by
  have hl : ((ofText tabWidth text).after ms).lines = Line.ofText tabWidth text :=
    lines_after _ ms
  have hp : ((ofText tabWidth text).after ms).Placed ((ofText tabWidth text).taken ms) :=
    (placed_ofText tabWidth text).after ms
  refine ⟨hl, { hp with
    peek := ?_
    back := fun _ _ => run_unread_next
    backTwice := ⟨rfl, ?_⟩
    rising := fun _ hu => (rising_taken hl hp.pos_le_length hu).2 }⟩
  · rw [peek_eq]
    exact ⟨rfl, rfl⟩
  · rw [peek_eq]
    rfl

/-- A look ahead sets the mark, so that the step before it is not taken back. -/
example : ((ofText 2 "a\nb".toList).run [.next, .peek, .unread, .next]).map (·.map (·.number)) =
    [some 1, some 2, none, some 2] := by
  decide

end OfText

end WorkflowLint.Cursor
