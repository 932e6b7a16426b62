import WorkflowLint.Cursor
import WorkflowLint.Proofs.Places

/-!
# Loops of a cursor

A reader that goes line by line takes the next significant line, takes it back if its block ends
there, and otherwise makes a turn, which may go on to further lines. If each turn goes over a
section, then the loop goes over its block, and it makes of it what a fold over the sections of the
block does.
-/
namespace WorkflowLint

/-- The lines from the first significant one on. -/
def skim (ls : List Line) : List Line :=
  ls.dropWhile fun l => !l.isSignificant

section Skim

variable {extent : Line → Extent} {own : Line → Bool} {ls : List Line}

theorem skim_cons_of_pos {l : Line} (h : l.isSignificant = true) : skim (l :: ls) = l :: ls :=
  List.dropWhile_cons_of_neg (by simp [h])

theorem skim_cons_of_neg {l : Line} (h : ¬l.isSignificant = true) : skim (l :: ls) = skim ls :=
  List.dropWhile_cons_of_pos (by simpa using h)

theorem isSignificant_of_skim {l : Line} {below : List Line} (h : skim ls = l :: below) :
    l.isSignificant = true := by
  have hd := List.head?_dropWhile_not (fun l : Line => !l.isSignificant) ls
  rw [← skim, h] at hd
  simpa using hd

theorem skim_takeWhile (h : ∀ l, l.isSignificant = false → own l = true) (ls : List Line) :
    skim (ls.takeWhile own) = (skim ls).takeWhile own := by
  induction ls with
  | nil => rfl
  | cons l ls ih =>
      by_cases hl : l.isSignificant = true
      · rw [skim_cons_of_pos hl]
        by_cases ho : own l = true
        · rw [List.takeWhile_cons_of_pos ho, skim_cons_of_pos hl]
        · rw [List.takeWhile_cons_of_neg ho]
          rfl
      · rw [List.takeWhile_cons_of_pos (h l (by simpa using hl)), skim_cons_of_neg hl,
          skim_cons_of_neg hl, ih]

theorem dropWhile_skim (h : ∀ l, l.isSignificant = false → own l = true) (ls : List Line) :
    (skim ls).dropWhile own = ls.dropWhile own := by
  induction ls with
  | nil => rfl
  | cons l ls ih =>
      by_cases hl : l.isSignificant = true
      · rw [skim_cons_of_pos hl]
      · rw [skim_cons_of_neg hl, List.dropWhile_cons_of_pos (h l (by simpa using hl)), ih]

namespace Section

theorem cutAll_skim (extent : Line → Extent) (ls : List Line) :
    cutAll extent (skim ls) = cutAll extent ls := by
  induction ls with
  | nil => rfl
  | cons l ls ih =>
      by_cases hl : l.isSignificant = true
      · rw [skim_cons_of_pos hl]
      · rw [skim_cons_of_neg hl, ih, cutAll, if_neg hl]

theorem level_cons (s : Section) (ss : List Section) :
    level (s :: ss) = s :: ss.filter (·.head.indent ≤ s.head.indent) := by
  simp [level]

theorem level_cutAll_takeWhile (extent : Line → Extent)
    (h : ∀ l, l.isSignificant = false → own l = true) {l : Line} {below : List Line}
    (hs : skim ls = l :: below) :
    level (cutAll extent (ls.takeWhile own)) =
      (cutAll extent (ls.takeWhile own)).filter (·.head.indent ≤ l.indent) := by
  rw [← cutAll_skim, skim_takeWhile h, hs, List.takeWhile_cons]
  split
  · rw [cutAll, if_pos (isSignificant_of_skim hs)]
    rfl
  · rw [cutAll]
    rfl

/-- Cutting a section off a block leaves the block below it. -/
theorem cut_takeWhile {head : Line} (h : ∀ l, (extent head).owns head l = true → own l = true)
    (ls : List Line) : cut extent head (ls.takeWhile own) =
      ((cut extent head ls).1, (cut extent head ls).2.takeWhile own) ∧
        (cut extent head ls).2.dropWhile own = ls.dropWhile own := by
  have hb := body_append_cut extent head ls
  have hown : ∀ l ∈ (cut extent head ls).1.body, own l = true :=
    fun l hl => h l (owned_of_mem_cut hl)
  constructor
  · conv_lhs => rw [← hb, List.takeWhile_append_of_pos hown]
    refine cut_append_below (fun l hl => owned_of_mem_cut hl) fun l hl => ?_
    have hm : l ∈ (cut extent head ls).2.head? := by
      cases hc : (cut extent head ls).2 with
      | nil =>
          rw [hc] at hl
          cases hl
      | cons m ms =>
          rw [hc, List.takeWhile_cons] at hl
          split at hl
          · exact hl
          · cases hl
    exact stops_cut hm
  · conv_rhs => rw [← hb, List.dropWhile_append_of_pos hown]

/-- Extents under which no line that is deeper than a level owns others. -/
def lineByLine (extent : Line → Extent) (level : Nat) (l : Line) : Extent :=
  if level < l.indent then .alone else extent l

theorem cut_alone {head : Line} (h : extent head = .alone) (ls : List Line) :
    cut extent head ls = (⟨head, []⟩, ls) := by
  cases ls <;> simp [cut, h, Extent.owns]

theorem cutAll_alone (ls : List Line) :
    cutAll (fun _ => .alone) ls = (ls.filter (·.isSignificant)).map (⟨·, []⟩) := by
  induction ls with
  | nil => simp [cutAll]
  | cons l ls ih =>
      rw [cutAll, cut_alone rfl, List.filter_cons]
      split
      · rw [List.map_cons, ih]
      · exact ih

/-- The sections at a level are the same if all that is deeper is cut line by line. -/
theorem filter_cutAll_lineByLine (extent : Line → Extent) (level : Nat) (ls : List Line) :
    (cutAll (lineByLine extent level) ls).filter (·.head.indent ≤ level) =
      (cutAll extent ls).filter (·.head.indent ≤ level) := by
  -- What is owned by a deeper line comes to nothing, be it cut line by line or not at all.
  have hdeeper {pre post : List Line} (h : ∀ l ∈ pre, l.isSignificant = false ∨ level < l.indent) :
      (cutAll (lineByLine extent level) (pre ++ post)).filter (·.head.indent ≤ level) =
        (cutAll (lineByLine extent level) post).filter (·.head.indent ≤ level) := by
    induction pre with
    | nil => rfl
    | cons l pre ih =>
        obtain ⟨hl, hp⟩ := List.forall_mem_cons.mp h
        rw [List.cons_append, cutAll]
        split
        · have hd : level < l.indent := hl.resolve_left (by simp_all)
          rw [cut_alone (if_pos hd), List.filter_cons_of_neg (by simp [hd]), ih hp]
        · exact ih hp
  fun_induction cutAll extent ls with
  | case1 => simp [cutAll]
  | case2 l ls hl ih =>
      rw [cutAll, if_pos hl]
      by_cases hd : level < l.indent
      · rw [cut_alone (if_pos hd), List.filter_cons_of_neg (by simp [hd]),
          List.filter_cons_of_neg (by simp [cut, Nat.not_le.mpr hd]), ← ih]
        conv_lhs => rw [← body_append_cut extent l ls]
        refine hdeeper fun m hm => ?_
        rcases Extent.cases_of_owns (owned_of_mem_cut hm) with h | h | ⟨-, h, -⟩
        · exact .inl h
        · exact .inr (by omega)
        · exact .inr (by omega)
      · have hx : lineByLine extent level l = extent l := if_neg hd
        have hc : cut (lineByLine extent level) l ls = cut extent l ls := by rw [cut, cut, hx]
        rw [hc, List.filter_cons, List.filter_cons, ih]
  | case3 l ls hl ih => rw [cutAll, if_neg hl, ih]

end Section

end Skim

/-! ## Moves -/

namespace Cursor

/-- The lines that are still to come. -/
def ahead (c : Cursor) : List Line :=
  c.lines.drop c.pos

/-- The next line, the lines below it, and those that are there again after it is taken back. -/
theorem next_eq (c : Cursor) : c.next.1 = (skim c.ahead).head? ∧
    c.next.2.ahead = (skim c.ahead).tail ∧ c.next.2.unread.ahead = c.ahead := by
  have hs : skim c.ahead = c.ahead.drop (c.ahead.findIdx (·.isSignificant)) := by
    rw [skim, List.dropWhile_eq_drop_findIdx_not]
    simp only [Bool.not_not]
  rw [hs]
  cases hf : c.ahead.findIdx? (·.isSignificant) with
  | none =>
      have hn : c.next = (none, ⟨c.lines, c.lines.length, c.pos⟩) := by
        rw [next, ← ahead, hf]
      rw [hn, List.findIdx_eq_length.mpr (List.findIdx?_eq_none_iff.mp hf), List.drop_length]
      simp [ahead, unread]
  | some k =>
      have hn : c.next = (c.lines[c.pos + k]?, ⟨c.lines, c.pos + k + 1, c.pos⟩) := by
        rw [next, ← ahead, hf]
      rw [hn, (List.findIdx?_eq_some_iff_findIdx_eq.mp hf).2]
      simp [ahead, unread, Nat.add_assoc]

theorem next_fst (c : Cursor) : c.next.1 = (skim c.ahead).head? :=
  c.next_eq.1

theorem ahead_next (c : Cursor) : c.next.2.ahead = (skim c.ahead).tail :=
  c.next_eq.2.1

theorem ahead_unread_next (c : Cursor) : c.next.2.unread.ahead = c.ahead :=
  c.next_eq.2.2

theorem skim_of_next_eq_none {c : Cursor} (h : c.next.1 = none) : skim c.ahead = [] :=
  List.head?_eq_none_iff.mp (c.next_fst.symm.trans h)

theorem ahead_next_eq_nil {c : Cursor} (h : c.next.1 = none) : c.next.2.ahead = [] := by
  rw [ahead_next, skim_of_next_eq_none h, List.tail_nil]

theorem exists_skim {c : Cursor} {l : Line} (h : c.next.1 = some l) :
    ∃ below, skim c.ahead = l :: below ∧ c.next.2.ahead = below := by
  obtain ⟨below, hs⟩ := List.head?_eq_some_iff.mp (c.next_fst.symm.trans h)
  exact ⟨below, hs, by rw [ahead_next, hs, List.tail_cons]⟩

theorem nextRaw_eq (c : Cursor) : c.nextRaw.1 = c.ahead.head? ∧
    c.nextRaw.2.ahead = c.ahead.tail ∧ c.nextRaw.2.unread.ahead = c.ahead := by
  unfold nextRaw
  cases hl : c.lines[c.pos]? with
  | none =>
      have hn : c.ahead = [] := List.drop_eq_nil_of_le (List.getElem?_eq_none_iff.mp hl)
      exact ⟨by rw [hn]; rfl, by rw [hn]; exact hn, rfl⟩
  | some l => simp [ahead, unread, hl]

theorem ahead_next_suffix (c : Cursor) : c.next.2.ahead <:+ c.ahead := by
  rw [ahead_next]
  exact (List.tail_suffix _).trans (List.dropWhile_suffix _)

theorem ahead_unread_next_suffix (c : Cursor) : c.next.2.unread.ahead <:+ c.ahead :=
  c.ahead_unread_next ▸ List.suffix_rfl

theorem ahead_nextRaw_suffix (c : Cursor) : c.nextRaw.2.ahead <:+ c.ahead := by
  rw [c.nextRaw_eq.2.1]
  exact List.tail_suffix _

theorem ahead_peek (c : Cursor) : c.peek.2.ahead = c.ahead :=
  c.ahead_unread_next

theorem next_peek (c : Cursor) : c.peek.2.next.1 = c.peek.1 := by
  rw [next_fst, ahead_peek, ← next_fst, peek]

/-- A step over a line advances the cursor. -/
theorem length_ahead_next {c : Cursor} {l : Line} (h : c.next.1 = some l) :
    c.next.2.ahead.length < c.ahead.length := by
  obtain ⟨below, hs, hb⟩ := exists_skim h
  have hle : (skim c.ahead).length ≤ c.ahead.length := (List.dropWhile_suffix _).length_le
  rw [hs, List.length_cons] at hle
  rw [hb]
  omega

theorem length_ahead_nextRaw {c : Cursor} {l : Line} (h : c.nextRaw.1 = some l) :
    c.nextRaw.2.ahead.length < c.ahead.length := by
  rw [c.nextRaw_eq.1] at h
  rw [c.nextRaw_eq.2.1, List.length_tail]
  have := List.length_pos_of_mem (List.mem_of_head? h)
  omega

end Cursor

/-- What was read from a cursor on, and the cursor after it. -/
structure Reading (c : Cursor) (α : Type) where
  value : α
  after : Cursor
  onward : after.ahead <:+ c.ahead

namespace Reading

variable {α β : Type} {c d : Cursor}

/-- A value for which no line is read. -/
def stay (c : Cursor) (a : α) : Reading c α :=
  ⟨a, c, List.suffix_rfl⟩

def map (f : α → β) (r : Reading c α) : Reading c β :=
  ⟨f r.value, r.after, r.onward⟩

/-- What was read, as from an earlier cursor on. -/
def since (h : d.ahead <:+ c.ahead) (r : Reading d α) : Reading c α :=
  ⟨r.value, r.after, r.onward.trans h⟩

/-- The value, and the lines that are still to come from the first significant one on. -/
def shown (r : Reading c α) : α × List Line :=
  (r.value, skim r.after.ahead)

end Reading

/-! ## Loops -/

namespace Cursor

variable {σ τ : Type} {m : Type → Type} [Monad m]

/-- Makes a turn for each line up to one that ends the block, which is taken back. -/
def each (ends : Line → Bool) (turn : σ → Line → (c : Cursor) → m (Reading c σ)) (s : σ)
    (c : Cursor) : m (Reading c σ) :=
  match _h : c.next.1 with
  | none => pure ⟨s, c.next.2, c.ahead_next_suffix⟩
  | some l =>
    if ends l then pure ⟨s, c.next.2.unread, c.ahead_unread_next_suffix⟩
    else turn s l c.next.2 >>= fun r =>
      Reading.since (r.onward.trans c.ahead_next_suffix) <$> each ends turn r.value r.after
termination_by c.ahead.length
decreasing_by exact Nat.lt_of_le_of_lt r.onward.length_le (length_ahead_next ‹_›)

/-- From a cursor, what is read goes over the lines that are told, but for some without meaning, and
makes of them what a function does. -/
def Takes {α : Type} {c : Cursor} (x : m (Reading c α)) (own : Line → Bool)
    (f : List Line → m α) : Prop :=
  Reading.shown <$> x = (·, skim (c.ahead.dropWhile own)) <$> f (c.ahead.takeWhile own)

variable {ends own : Line → Bool} {turn : σ → Line → (c : Cursor) → m (Reading c σ)} {s : σ}
  {c : Cursor} {extent : Line → Extent} {read : σ → Section → m σ}

theorem each_of_none (h : c.next.1 = none) :
    each ends turn s c = pure ⟨s, c.next.2, c.ahead_next_suffix⟩ := by
  rw [each]
  split <;> simp_all

theorem each_of_ends {l : Line} (h : c.next.1 = some l) (he : ends l = true) :
    each ends turn s c = pure ⟨s, c.next.2.unread, c.ahead_unread_next_suffix⟩ := by
  rw [each]
  split <;> simp_all

theorem each_of_not_ends {l : Line} (h : c.next.1 = some l) (he : ¬ends l = true) :
    each ends turn s c = turn s l c.next.2 >>= fun r =>
      Reading.since (r.onward.trans c.ahead_next_suffix) <$> each ends turn r.value r.after := by
  rw [each]
  split <;> simp_all

/-- What a fold over the sections of a block comes to, and what is left of the lines. -/
def block (own : Line → Bool) (extent : Line → Extent) (read : σ → Section → m σ) (s : σ)
    (ls : List Line) : m (σ × List Line) :=
  (·, skim (ls.dropWhile own)) <$> (Section.cutAll extent (ls.takeWhile own)).foldlM read s

theorem block_skim (h : ∀ l, l.isSignificant = false → own l = true) (ls : List Line) :
    block own extent read s (skim ls) = block own extent read s ls := by
  rw [block, block, dropWhile_skim h, ← skim_takeWhile h, Section.cutAll_skim]

variable [LawfulMonad m] {l : Line} {ls : List Line}

theorem block_cons_of_neg (hl : l.isSignificant = true) (ho : ¬own l = true) :
    block own extent read s (l :: ls) = pure (s, l :: ls) := by
  rw [block, List.takeWhile_cons_of_neg ho, List.dropWhile_cons_of_neg ho, skim_cons_of_pos hl]
  simp [Section.cutAll]

theorem block_cons_of_pos (hl : l.isSignificant = true) (ho : own l = true)
    (hx : ∀ k, (extent l).owns l k = true → own k = true) :
    block own extent read s (l :: ls) =
      read s (Section.cut extent l ls).1 >>= fun s =>
        block own extent read s (Section.cut extent l ls).2 := by
  obtain ⟨hc, hd⟩ := Section.cut_takeWhile hx ls
  simp only [block, List.takeWhile_cons_of_pos ho, List.dropWhile_cons_of_pos ho]
  rw [Section.cutAll, if_pos hl, hc, List.foldlM_cons, map_bind, hd]

theorem Takes.map {α β : Type} {x : m (Reading c α)} {f : List Line → m α} (h : Takes x own f)
    (g : α → β) : Takes (Reading.map g <$> x) own fun body => g <$> f body := by
  have hs := congrArg ((fun p => (g p.1, p.2)) <$> ·) h
  rw [← comp_map, ← comp_map] at hs
  rw [Takes, ← comp_map, ← comp_map]
  exact hs

/-- A block is what stands above the first line that ends it, and nothing that stands in it takes a
line from below. -/
structure Encloses (own ends : Line → Bool) (extent : Line → Extent) : Prop where
  own_eq : ∀ l, own l = (!l.isSignificant || !ends l)
  inner : ∀ l k, l.isSignificant = true → own l = true → (extent l).owns l k = true → own k = true

theorem Encloses.own_of_not_significant (h : Encloses own ends extent) {l : Line}
    (hl : l.isSignificant = false) : own l = true := by
  rw [h.own_eq, hl]
  rfl

/-- Each turn takes the section of its line. -/
def TakesSections (turn : σ → Line → (c : Cursor) → m (Reading c σ)) (extent : Line → Extent)
    (read : σ → Section → m σ) : Prop :=
  ∀ s l c, Takes (turn s l c) ((extent l).owns l) fun body => read s ⟨l, body⟩

/-- If each turn takes its section, then a loop takes its block. -/
theorem takes_each (h : Encloses own ends extent) (ht : TakesSections turn extent read) (s : σ)
    (c : Cursor) :
    Takes (each ends turn s c) own fun body => (Section.cutAll extent body).foldlM read s := by
  have hi : ∀ l, l.isSignificant = false → own l = true := fun _ => h.own_of_not_significant
  show Reading.shown <$> each ends turn s c = block own extent read s c.ahead
  induction s, c using each.induct ends with
  | case1 s c hnext =>
      have hs := skim_of_next_eq_none hnext
      rw [each_of_none hnext, map_pure, Reading.shown, ahead_next, ← block_skim hi, hs]
      simp [block, Section.cutAll, skim]
  | case2 s c l hnext he =>
      obtain ⟨below, hs, -⟩ := exists_skim hnext
      have hl := isSignificant_of_skim hs
      have ho : ¬own l = true := by simp [h.own_eq, hl, he]
      rw [each_of_ends hnext he, map_pure, Reading.shown, ahead_unread_next, ← block_skim hi, hs,
        block_cons_of_neg hl ho]
  | case3 s c l hnext he ih =>
      obtain ⟨below, hs, hb⟩ := exists_skim hnext
      have hl := isSignificant_of_skim hs
      have ho : own l = true := by simp [h.own_eq, he]
      have hturn := ht s l c.next.2
      rw [Takes, hb] at hturn
      -- What the loop makes of the lines after a turn depends only on what the turn shows.
      have hrest (r : Reading c.next.2 σ) :
          Reading.shown <$> Reading.since (r.onward.trans c.ahead_next_suffix) <$>
            each ends turn r.value r.after = block own extent read r.shown.1 r.shown.2 := by
        rw [← comp_map, Reading.shown, block_skim hi]
        exact ih r
      calc Reading.shown <$> each ends turn s c
          = turn s l c.next.2 >>= fun r => block own extent read r.shown.1 r.shown.2 := by
            rw [each_of_not_ends hnext he, map_bind]
            exact congrArg _ (funext hrest)
        _ = (Reading.shown <$> turn s l c.next.2) >>= fun p => block own extent read p.1 p.2 := by
            rw [bind_map_left]
        _ = read s (Section.cut extent l below).1 >>= fun s =>
              block own extent read s (skim (Section.cut extent l below).2) := by
            rw [hturn, bind_map_left]
            rfl
        _ = block own extent read s (l :: below) := by
            rw [block_cons_of_pos hl ho (h.inner l · hl ho)]
            simp only [block_skim hi]
        _ = block own extent read s c.ahead := by rw [← hs, block_skim hi]

/-- If no line ends a loop, then it leaves no line. -/
theorem each_ends_ahead (turn : σ → Line → (c : Cursor) → m (Reading c σ)) (s : σ) (c : Cursor) :
    (·.after.ahead) <$> each (fun _ => false) turn s c =
      (fun _ => []) <$> each (fun _ => false) turn s c := by
  induction s, c using each.induct fun _ => false with
  | case1 s c hnext => rw [each_of_none hnext, map_pure, map_pure, ahead_next_eq_nil hnext]
  | case2 s c l hnext he => cases he
  | case3 s c l hnext he ih =>
      rw [each_of_not_ends hnext he, map_bind, map_bind]
      refine congrArg _ (funext fun r => ?_)
      rw [← comp_map, ← comp_map]
      exact ih r

/-! ## Levels -/

/-- A turn for a line at a level, which is that of the first line; deeper lines are passed over. -/
def atLevel (turn : σ → Line → (c : Cursor) → m (Reading c σ)) (s : σ × Option Nat) (l : Line)
    (c : Cursor) : m (Reading c (σ × Option Nat)) :=
  let level := s.2.getD l.indent
  if level < l.indent then pure (.stay c (s.1, some level))
  else Reading.map (·, some level) <$> turn s.1 l c

/-- A loop over the lines at a level, which is that of the first line if it is not known before. -/
def eachAtLevel (ends : Line → Bool) (turn : σ → Line → (c : Cursor) → m (Reading c σ))
    (level : Option Nat) (s : σ) (c : Cursor) : m (Reading c σ) :=
  Reading.map Prod.fst <$> each ends (atLevel turn) (s, level) c

/-- A turn for a line that is not deeper than a level. -/
def upTo (level : Nat) (turn : σ → Line → (c : Cursor) → m (Reading c σ)) (s : σ) (l : Line)
    (c : Cursor) : m (Reading c σ) :=
  if level < l.indent then pure (.stay c s) else turn s l c

theorem each_map {turn' : τ → Line → (c : Cursor) → m (Reading c τ)} {g : σ → τ}
    (h : ∀ s l c, turn' (g s) l c = Reading.map g <$> turn s l c) (s : σ) (c : Cursor) :
    each ends turn' (g s) c = Reading.map g <$> each ends turn s c := by
  induction s, c using each.induct ends with
  | case1 s c hnext =>
      rw [each_of_none hnext, each_of_none hnext, map_pure]
      rfl
  | case2 s c l hnext he =>
      rw [each_of_ends hnext he, each_of_ends hnext he, map_pure]
      rfl
  | case3 s c l hnext he ih =>
      rw [each_of_not_ends hnext he, each_of_not_ends hnext he, h, map_bind, bind_map_left]
      refine congrArg _ (funext fun r => ?_)
      have hr : each ends turn' (g r.value) r.after = _ := ih r
      simp only [Reading.map, hr, ← comp_map]
      rfl

theorem eachAtLevel_some (level : Nat) (s : σ) (c : Cursor) :
    eachAtLevel ends turn (some level) s c = each ends (upTo level turn) s c := by
  have hm : each ends (atLevel turn) (s, some level) c =
      Reading.map (·, some level) <$> each ends (upTo level turn) s c := by
    refine each_map (g := (·, some level)) (fun s l c => ?_) s c
    simp only [atLevel, upTo, Option.getD_some]
    split
    · rw [map_pure]
      rfl
    · rfl
  rw [eachAtLevel, hm, ← comp_map]
  exact id_map _

/-- The first line sets the level. -/
theorem eachAtLevel_none (h : c.next.1 = some l) (s : σ) :
    eachAtLevel ends turn none s c = eachAtLevel ends turn (some l.indent) s c := by
  by_cases he : ends l = true
  · rw [eachAtLevel, eachAtLevel, each_of_ends h he, each_of_ends h he, map_pure, map_pure]
    rfl
  · rw [eachAtLevel, eachAtLevel, each_of_not_ends h he, each_of_not_ends h he]
    rfl

theorem Encloses.lineByLine (h : Encloses own ends extent) (level : Nat) :
    Encloses own ends (Section.lineByLine extent level) where
  own_eq := h.own_eq
  inner l k hl ho hk := by
    unfold Section.lineByLine at hk
    split at hk
    · cases hk
    · exact h.inner l k hl ho hk

theorem TakesSections.upTo (ht : TakesSections turn extent read) (level : Nat) :
    TakesSections (upTo level turn) (Section.lineByLine extent level)
      fun s sec => if sec.head.indent ≤ level then read s sec else pure s := by
  intro s l c
  by_cases hd : level < l.indent
  · have hc : Section.cut (Section.lineByLine extent level) l c.ahead = (⟨l, []⟩, c.ahead) :=
      Section.cut_alone (if_pos hd) _
    have hdrop := congrArg Prod.snd hc
    simp only [Section.cut] at hdrop
    simp only [Takes, Cursor.upTo, if_pos hd, if_neg (Nat.not_le.mpr hd), map_pure, hdrop]
    rfl
  · simp only [Cursor.upTo, Section.lineByLine, if_neg hd, if_pos (Nat.not_lt.mp hd)]
    exact ht s l c

theorem takes_eachAtLevel_some (h : Encloses own ends extent) (ht : TakesSections turn extent read)
    (level : Nat) (s : σ) (c : Cursor) :
    Takes (eachAtLevel ends turn (some level) s c) own fun body =>
      ((Section.cutAll extent body).filter (·.head.indent ≤ level)).foldlM read s := by
  simp only [eachAtLevel_some, ← Section.filter_cutAll_lineByLine extent level, List.foldlM_filter,
    decide_eq_true_eq]
  exact takes_each (h.lineByLine level) (ht.upTo level) s c

theorem takes_eachAtLevel (h : Encloses own ends extent) (ht : TakesSections turn extent read)
    (s : σ) (c : Cursor) :
    Takes (eachAtLevel ends turn none s c) own fun body =>
      (Section.level (Section.cutAll extent body)).foldlM read s := by
  have hi : ∀ l, l.isSignificant = false → own l = true := fun _ => h.own_of_not_significant
  cases hnext : c.next.1 with
  | none =>
      have hs := skim_of_next_eq_none hnext
      have hcut : Section.cutAll extent (c.ahead.takeWhile own) = [] := by
        rw [← Section.cutAll_skim, skim_takeWhile hi, hs, List.takeWhile_nil, Section.cutAll]
      have hdrop : c.ahead.dropWhile own = [] := by
        rw [← dropWhile_skim hi, hs, List.dropWhile_nil]
      rw [Takes, eachAtLevel, each_of_none hnext, map_pure, map_pure, hcut, hdrop, Section.level,
        List.foldlM_nil, map_pure, Reading.shown, Reading.map, ahead_next_eq_nil hnext]
  | some l =>
      obtain ⟨below, hs, -⟩ := exists_skim hnext
      have hsome := takes_eachAtLevel_some h ht l.indent s c
      rw [Takes, ← Section.level_cutAll_takeWhile extent hi hs] at hsome
      rw [eachAtLevel_none hnext]
      exact hsome

end Cursor

end WorkflowLint
