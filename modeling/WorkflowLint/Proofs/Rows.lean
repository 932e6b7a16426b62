import Mathlib.Data.List.Basic
import WorkflowLint.Proofs.Rendering
import WorkflowLint.Section

/-!
# Rows and blocks

What is written row by row is read line by line, and what is written block by block is cut into
sections block by block, if no block reaches further than what was written below it.
-/
namespace WorkflowLint

/-! ## White space -/

namespace Text

variable {cs : List Char} {depth : Nat}

theorem isBlank_space : isBlank ' ' = true := by decide

theorem trimStart_of_head? {c : Char} (hc : cs.head? = some c) (hb : isBlank c = false) :
    trimStart cs = cs := by
  cases cs with
  | nil => cases hc
  | cons d ds =>
      cases hc
      rw [trimStart_cons, if_neg (by simp [hb])]

theorem trimEnd_of_getLast? {c : Char} (hc : cs.getLast? = some c) (hb : isBlank c = false) :
    trimEnd cs = cs := by
  obtain ⟨ds, rfl⟩ := List.getLast?_eq_some_iff.mp hc
  rw [trimEnd_concat, if_neg (by simp [hb])]

theorem trimStart_row : trimStart (row depth cs) = trimStart cs := by
  induction depth with
  | zero => rfl
  | succ n ih =>
      rw [row, List.replicate_succ, List.cons_append, trimStart_cons, if_pos isBlank_space]
      exact ih

theorem width_row (tabWidth : Nat) :
    Line.width tabWidth (row depth cs) = depth + Line.width tabWidth cs := by
  induction depth with
  | zero => simp [row]
  | succ n ih =>
      rw [row, List.replicate_succ, List.cons_append, Line.width, ← row, ih]
      omega

theorem width_of_head? {tabWidth : Nat} {c : Char} (hc : cs.head? = some c)
    (hb : isBlank c = false) : Line.width tabWidth cs = 0 := by
  cases cs with
  | nil => cases hc
  | cons d ds =>
      cases hc
      have hs : c ≠ ' ' := by
        rintro rfl
        exact absurd hb (by decide)
      have ht : c ≠ '\t' := by
        rintro rfl
        exact absurd hb (by decide)
      unfold Line.width
      split <;> simp_all

/-- A text without white space around it, which is not empty. -/
structure IsTight (cs : List Char) : Prop where
  head : ∃ c, cs.head? = some c ∧ isBlank c = false
  last : ∃ c, cs.getLast? = some c ∧ isBlank c = false

theorem IsTight.ne_nil (h : IsTight cs) : cs ≠ [] := by
  rintro rfl
  obtain ⟨c, hc, -⟩ := h.head
  cases hc

theorem IsTight.trimStart_eq (h : IsTight cs) : trimStart cs = cs := by
  obtain ⟨c, hc, hb⟩ := h.head
  exact trimStart_of_head? hc hb

theorem IsTight.trimEnd_eq (h : IsTight cs) : trimEnd cs = cs := by
  obtain ⟨c, hc, hb⟩ := h.last
  exact trimEnd_of_getLast? hc hb

theorem IsTight.trim_eq (h : IsTight cs) : trim cs = cs := by
  rw [trim, h.trimStart_eq, h.trimEnd_eq]

theorem IsTight.trim_row (h : IsTight cs) : trim (row depth cs) = cs := by
  rw [trim, trimStart_row, h.trimStart_eq, h.trimEnd_eq]

theorem IsTight.width_row (h : IsTight cs) (tabWidth : Nat) :
    Line.width tabWidth (row depth cs) = depth := by
  obtain ⟨c, hc, hb⟩ := h.head
  rw [Text.width_row, width_of_head? hc hb, Nat.add_zero]

theorem IsTight.getLast?_ne (h : IsTight cs) : cs.getLast? ≠ some '\r' := by
  intro hr
  obtain ⟨c, hc, hb⟩ := h.last
  cases hc.symm.trans hr
  exact absurd hb (by decide)

/-- A text that can stand on a line of its own, where it is no comment. -/
structure IsHead (cs : List Char) : Prop extends IsTight cs where
  noComment : cs.head? ≠ some '#'
  oneLine : '\n' ∉ cs

end Text

open Text

namespace Line

variable {tabWidth number depth : Nat} {cs : List Char}

theorem ofRaw_row (h : IsTight cs) :
    ofRaw tabWidth number (row depth cs) = ⟨number, depth, cs⟩ := by
  rw [ofRaw, h.width_row, h.trim_row]

theorem isSignificant_of_isHead (h : IsHead cs) :
    (⟨number, depth, cs⟩ : Line).isSignificant = true := by
  simp [isSignificant, isBlank, isComment, h.ne_nil, h.noComment]

theorem isItem_of_head? (h : cs.head? ≠ some '-') :
    (⟨number, depth, cs⟩ : Line).isItem = false := by
  unfold isItem
  split <;> simp_all

end Line

/-! ## Lines of a text -/

/-- A row that is read back as a line. -/
structure Text.IsRow (r : List Char) : Prop where
  oneLine : '\n' ∉ r
  noReturn : r.getLast? ≠ some '\r'

theorem Text.isRow_nil : IsRow [] := ⟨by simp, by simp⟩

theorem Text.isRow_row {depth : Nat} {cs : List Char} (hn : '\n' ∉ cs)
    (hl : cs.getLast? ≠ some '\r') : IsRow (row depth cs) := by
  refine ⟨by simp [row, hn], fun h => ?_⟩
  rw [row, List.getLast?_append] at h
  cases hc : cs.getLast? with
  | some c => rw [hc] at h hl; exact hl h
  | none =>
      rw [hc, Option.none_or] at h
      have hm := List.mem_of_getLast? h
      simp at hm

theorem Text.IsHead.isRow {depth : Nat} {cs : List Char} (h : IsHead cs) : IsRow (row depth cs) :=
  isRow_row h.oneLine h.getLast?_ne

theorem Text.unlines_eq_intercalate (rows : List (List Char)) :
    unlines rows = ['\n'].intercalate (rows ++ [[]]) := by
  induction rows with
  | nil => rfl
  | cons r rs ih =>
      rw [List.cons_append, List.intercalate_cons_of_ne_nil (by simp), ← ih]
      rfl

theorem Text.lines_unlines {rows : List (List Char)} (h : ∀ r ∈ rows, IsRow r) :
    lines (unlines rows) = rows := by
  have hs : (unlines rows).splitOn '\n' = rows ++ [[]] := by
    rw [unlines_eq_intercalate]
    refine List.splitOn_intercalate '\n' (fun l hl => ?_) (by simp)
    rcases List.mem_append.mp hl with hr | he
    · exact (h l hr).oneLine
    · simp [List.mem_singleton.mp he]
  have hd : rows.map dropReturn = rows :=
    (List.map_congr_left fun r hr => if_neg (h r hr).noReturn).trans (List.map_id' rows)
  simp [lines, hs, hd]

/-! ## Sections -/

theorem Extent.owns_of_deeper {e : Extent} {head l : Line} (he : e ≠ .alone)
    (h : l.isBlank = true ∨ head.indent < l.indent) : e.owns head l = true := by
  have hs : l.isBlank = true → l.isSignificant = false := fun hb => by
    rw [Line.isSignificant, hb]
    rfl
  rcases h with h | h <;> cases e <;> simp_all [owns]

theorem Extent.owns_eq_false {e : Extent} {head l : Line} (hl : l.isSignificant = true)
    (hd : l.indent ≤ head.indent) (h : l.isItem = false ∨ e ≠ .block) : e.owns head l = false := by
  have hb : l.isBlank = false := by simp_all [Line.isSignificant]
  rcases h with h | h <;> cases e <;> simp_all [owns]

def Section.lines (s : Section) : List Line :=
  s.head :: s.body

namespace Section

variable {extent : Line → Extent} {ss : List Section}

theorem cut_append_below {head : Line} {body below : List Line}
    (hb : ∀ l ∈ body, (extent head).owns head l = true)
    (hs : ∀ l ∈ below.head?, (extent head).owns head l = false) :
    cut extent head (body ++ below) = (⟨head, body⟩, below) := by
  rw [cut, List.takeWhile_append_of_pos hb, List.dropWhile_append_of_pos hb]
  cases below with
  | nil => simp
  | cons l ls => simp [hs l rfl]

/-- Sections that own their own lines, and none of which owns the first line of another, are what
their lines are cut into. -/
theorem cutAll_flatMap_lines (hs : ∀ s ∈ ss, s.head.isSignificant = true)
    (ho : ∀ s ∈ ss, ∀ l ∈ s.body, (extent s.head).owns s.head l = true)
    (hn : ∀ s ∈ ss, ∀ t ∈ ss, (extent s.head).owns s.head t.head = false) :
    cutAll extent (ss.flatMap lines) = ss := by
  induction ss with
  | nil => simp [cutAll]
  | cons s ss ih =>
      have hih := ih (fun t ht => hs t (List.mem_cons_of_mem _ ht))
        (fun t ht => ho t (List.mem_cons_of_mem _ ht))
        (fun t ht u hu => hn t (List.mem_cons_of_mem _ ht) u (List.mem_cons_of_mem _ hu))
      have hb := ho s List.mem_cons_self
      have hr : ∀ l, (ss.flatMap lines).head? = some l →
          (extent s.head).owns s.head l = false := by
        intro l hl
        cases ss with
        | nil => cases hl
        | cons t ts =>
            cases hl
            exact hn s List.mem_cons_self t (by simp)
      have hc : cut extent s.head (s.body ++ ss.flatMap lines) = (s, ss.flatMap lines) :=
        cut_append_below hb hr
      rw [List.flatMap_cons, lines, List.cons_append, cutAll, if_pos (hs s List.mem_cons_self), hc,
        hih]

theorem level_of_indent {depth : Nat} (h : ∀ s ∈ ss, s.head.indent = depth) : level ss = ss := by
  cases ss with
  | nil => rfl
  | cons s ss =>
      refine List.filter_eq_self.mpr fun t ht => ?_
      rw [h t ht, h s List.mem_cons_self]
      exact decide_eq_true (Nat.le_refl depth)

end Section

/-! ## Blocks -/

/-- An empty row, or one that is deeper. -/
def Text.IsDeeper (depth : Nat) (r : List Char) : Prop :=
  r = [] ∨ List.replicate (depth + 1) ' ' <+: r

theorem Text.isDeeper_row {depth e : Nat} (h : depth < e) (cs : List Char) :
    IsDeeper depth (row e cs) := by
  refine Or.inr ⟨List.replicate (e - (depth + 1)) ' ' ++ cs, ?_⟩
  rw [row, ← List.append_assoc, List.replicate_append_replicate]
  congr 2
  omega

theorem Text.IsDeeper.mono {d e : Nat} {r : List Char} (h : IsDeeper e r) (hd : d ≤ e) :
    IsDeeper d r := by
  rcases h with h | ⟨cs, rfl⟩
  · exact Or.inl h
  · exact isDeeper_row (Nat.lt_succ_of_le hd) cs

theorem Text.IsDeeper.ofRaw {depth : Nat} {r : List Char} (h : IsDeeper depth r)
    (tabWidth : Nat) : (Line.ofRaw tabWidth 0 r).isBlank = true ∨
      depth < (Line.ofRaw tabWidth 0 r).indent := by
  rcases h with rfl | ⟨rest, rfl⟩
  · exact Or.inl rfl
  · refine Or.inr ?_
    rw [← row, Line.ofRaw]
    simp only [width_row]
    omega

namespace Block

variable {extent : Line → Extent} {tabWidth depth : Nat} {bs : List Block}

/-- The section that a block is read as. -/
def toSection (tabWidth depth : Nat) (b : Block) : Section :=
  ⟨⟨0, depth, b.head⟩, b.body.map (Line.ofRaw tabWidth 0)⟩

/-- What is written below the line of a block belongs to it. -/
structure Fits (extent : Line → Extent) (depth : Nat) (b : Block) : Prop where
  head : IsHead b.head
  isRow : ∀ r ∈ b.body, IsRow r
  deeper : ∀ r ∈ b.body, IsDeeper depth r
  reach : b.body = [] ∨ extent ⟨0, depth, b.head⟩ ≠ .alone

theorem eq_nil_of_flatMap_rows (h : bs.flatMap (rows depth) = []) : bs = [] := by
  cases bs with
  | nil => rfl
  | cons b bs => cases h

theorem map_flatMap_rows (h : ∀ b ∈ bs, b.Fits extent depth) :
    (bs.flatMap (rows depth)).map (Line.ofRaw tabWidth 0) =
      (bs.map (toSection tabWidth depth)).flatMap Section.lines := by
  rw [List.map_flatMap, List.flatMap_map]
  refine List.flatMap_congr fun b hb => ?_
  rw [rows, List.map_cons, Line.ofRaw_row (h b hb).head.toIsTight]
  rfl

theorem Fits.owns {b : Block} (h : b.Fits extent depth) {l : Line}
    (hl : l ∈ (b.toSection tabWidth depth).body) :
    (extent (b.toSection tabWidth depth).head).owns (b.toSection tabWidth depth).head l = true := by
  obtain ⟨r, hr, rfl⟩ := List.mem_map.mp hl
  rcases h.reach with he | he
  · rw [he] at hr
    cases hr
  · exact Extent.owns_of_deeper he ((h.deeper r hr).ofRaw tabWidth)

/-- Blocks that fit are read as their sections, unless a list at their own depth could belong to
one of them. -/
theorem cutAll_rows (h : ∀ b ∈ bs, b.Fits extent depth)
    (hi : (∀ b ∈ bs, b.head.head? ≠ some '-') ∨ ∀ l, extent l ≠ .block) :
    Section.cutAll extent ((bs.flatMap (rows depth)).map (Line.ofRaw tabWidth 0)) =
      bs.map (toSection tabWidth depth) := by
  rw [map_flatMap_rows h]
  refine Section.cutAll_flatMap_lines (fun s hs => ?_) (fun s hs l hl => ?_) fun s hs t ht => ?_
  · obtain ⟨b, hb, rfl⟩ := List.mem_map.mp hs
    exact Line.isSignificant_of_isHead (h b hb).head
  · obtain ⟨b, hb, rfl⟩ := List.mem_map.mp hs
    exact (h b hb).owns hl
  · obtain ⟨b, hb, rfl⟩ := List.mem_map.mp hs
    obtain ⟨c, hc, rfl⟩ := List.mem_map.mp ht
    refine Extent.owns_eq_false (Line.isSignificant_of_isHead (h c hc).head) (Nat.le_refl depth) ?_
    exact hi.imp (fun hd => Line.isItem_of_head? (hd c hc)) fun hx => hx _

theorem level_map_toSection : Section.level (bs.map (toSection tabWidth depth)) =
    bs.map (toSection tabWidth depth) :=
  Section.level_of_indent fun s hs => by
    obtain ⟨b, -, rfl⟩ := List.mem_map.mp hs
    rfl

theorem isRow_of_fits (h : ∀ b ∈ bs, b.Fits extent depth) {r : List Char}
    (hr : r ∈ bs.flatMap (rows depth)) : IsRow r := by
  obtain ⟨b, hb, hm⟩ := List.mem_flatMap.mp hr
  rcases List.mem_cons.mp hm with rfl | hm
  · exact (h b hb).head.isRow
  · exact (h b hb).isRow r hm

theorem isDeeper_of_fits {e : Nat} (h : ∀ b ∈ bs, b.Fits extent depth) (he : e < depth)
    {r : List Char} (hr : r ∈ bs.flatMap (rows depth)) : IsDeeper e r := by
  obtain ⟨b, hb, hm⟩ := List.mem_flatMap.mp hr
  rcases List.mem_cons.mp hm with rfl | hm
  · exact isDeeper_row he b.head
  · exact ((h b hb).deeper r hm).mono (Nat.le_of_lt he)

end Block

end WorkflowLint
