import Mathlib.Data.List.TakeWhile
import WorkflowLint.Proofs.Rows

/-!
# Scripts

A text of several lines that is written below a `|`, deeper by the same number of spaces on every
line that is not blank, is read back unchanged: the least indentation is that number of spaces, and
the last line is not one of the blank lines that are dropped.
-/
namespace WorkflowLint

open Text

namespace BlockStyle

variable {depth : Nat} {ls : List Line}

theorem body_eq_self (h : ∀ l, ls.getLast? = some l → l.isBlank = false) : body ls = ls := by
  rcases List.eq_nil_or_concat ls with rfl | ⟨ks, k, rfl⟩
  · rfl
  · rw [List.concat_eq_append] at h ⊢
    simp [body, h k (by simp)]

theorem margin_eq (hd : ∀ l ∈ ls, l.isBlank = false → depth ≤ l.indent)
    (hf : ∃ l ∈ ls, l.isBlank = false ∧ l.indent = depth) : margin ls = depth := by
  obtain ⟨l, hl, hb, hi⟩ := hf
  have hm : ((ls.filter (!·.isBlank)).map (·.indent)).min? = some depth := by
    refine List.min?_eq_some_iff.mpr ⟨?_, fun i hm => ?_⟩
    · exact List.mem_map.mpr ⟨l, List.mem_filter.mpr ⟨hl, by simp [hb]⟩, hi⟩
    · obtain ⟨k, hk, rfl⟩ := List.mem_map.mp hm
      obtain ⟨hk, hn⟩ := List.mem_filter.mp hk
      exact hd k hk (by simpa using hn)
  rw [margin, hm, Option.getD_some]

theorem join_literal (rows : List (List Char)) : join .literal rows = ['\n'].intercalate rows := by
  induction rows with
  | nil => rfl
  | cons r rs ih =>
      cases rs with
      | nil => simp [join]
      | cons s ss =>
          rw [join, ih, List.intercalate_cons_cons]
          simp [joint]

theorem isBlank_of_row_ne_nil {l : Line} (h : row depth l ≠ []) : l.isBlank = false := by
  refine Bool.eq_false_iff.mpr fun hb => h ?_
  rw [row, if_pos hb]

theorem indent_le_of_head?_row {l : Line} (hn : row depth l ≠ [])
    (h : (row depth l).head? ≠ some ' ') : l.indent ≤ depth := by
  rw [row, isBlank_of_row_ne_nil hn] at h
  refine Nat.le_of_sub_eq_zero (Classical.not_not.mp fun hz => h ?_)
  obtain ⟨n, he⟩ := Nat.exists_eq_succ_of_ne_zero hz
  rw [he]
  rfl

/-- The lines of a block whose rows to the right of a depth are a script write their joined text. -/
theorem text_eq_join (style : BlockStyle) (hd : ∀ l ∈ ls, l.isBlank = false → depth ≤ l.indent)
    (h : IsScript (ls.map (row depth))) : style.text ls = style.join (ls.map (row depth)) := by
  have hf : ∃ l ∈ ls, l.isBlank = false ∧ l.indent = depth := by
    obtain ⟨r, hr, hn, hs⟩ := h.flush
    obtain ⟨l, hl, rfl⟩ := List.mem_map.mp hr
    have hb := isBlank_of_row_ne_nil hn
    exact ⟨l, hl, hb, Nat.le_antisymm (indent_le_of_head?_row hn hs) (hd l hl hb)⟩
  have hl : ∀ l, ls.getLast? = some l → l.isBlank = false := fun l hl => by
    have hr : row depth l ≠ [] := fun he => h.last (by rw [List.getLast?_map, hl, Option.map_some, he])
    exact isBlank_of_row_ne_nil hr
  rw [text, body_eq_self hl, margin_eq hd hf]

theorem text_literal (hd : ∀ l ∈ ls, l.isBlank = false → depth ≤ l.indent)
    (h : IsScript (ls.map (row depth))) :
    text .literal ls = ['\n'].intercalate (ls.map (row depth)) := by
  rw [text_eq_join .literal hd h, join_literal]

/-- Blank lines at the end of a block are not part of its text. -/
theorem text_append_of_blank (style : BlockStyle) (ls : List Line) {blanks : List Line}
    (h : ∀ l ∈ blanks, l.isBlank = true) : style.text (ls ++ blanks) = style.text ls := by
  have hb : body (ls ++ blanks) = body ls := by
    rw [body, List.reverse_append,
      List.dropWhile_append_of_pos fun l hl => h l (List.mem_reverse.mp hl)]
    rfl
  have hm : margin (ls ++ blanks) = margin ls := by
    have hf : blanks.filter (!·.isBlank) = [] := List.filter_eq_nil_iff.mpr fun l hl => by simp [h l hl]
    rw [margin, List.filter_append, hf, List.append_nil]
    rfl
  rw [text, hb, hm]
  rfl

end BlockStyle

/-! ## Rows of a script -/

namespace Text

variable {cs : List Char} {depth tabWidth number : Nat}

theorem getLast?_trimEnd {c : Char} (h : (trimEnd cs).getLast? = some c) : isBlank c = false := by
  rw [trimEnd, List.getLast?_reverse] at h
  exact head?_trimStart h

theorem trimEnd_prefix (cs : List Char) : trimEnd cs <+: cs := by
  have hs := (List.dropWhile_suffix isBlank (l := cs.reverse)).reverse
  rwa [List.reverse_reverse] at hs

theorem isTight_of_trim_eq (hn : cs ≠ []) (h : trim cs = cs) : IsTight cs := by
  obtain ⟨c, hc⟩ := Option.ne_none_iff_exists'.mp (mt List.head?_eq_none_iff.mp hn)
  obtain ⟨d, hd⟩ := Option.ne_none_iff_exists'.mp (mt List.getLast?_eq_none_iff.mp hn)
  obtain ⟨rest, hr⟩ := trimEnd_prefix (trimStart cs)
  rw [← trim, h] at hr
  have hs : (trimStart cs).head? = some c := by rw [← hr, List.head?_append, hc, Option.some_or]
  rw [← h] at hd
  exact ⟨⟨c, hc, head?_trimStart hs⟩, d, h ▸ hd, getLast?_trimEnd hd⟩

/-- A piece between separators has none. -/
theorem not_mem_of_mem_splitOn {c : Char} {piece : List Char} (h : piece ∈ cs.splitOn c) :
    c ∉ piece := by
  induction cs generalizing piece with
  | nil => simp_all
  | cons d ds ih =>
      obtain ⟨p, ps, hp⟩ := List.exists_cons_of_ne_nil (List.splitOn_ne_nil c ds)
      rw [List.splitOn_cons_eq_if_modifyHead] at h
      split at h
      · rcases List.mem_cons.mp h with rfl | h
        · exact List.not_mem_nil
        · exact ih h
      · rename_i hd
        rw [hp, List.modifyHead_cons] at h
        rcases List.mem_cons.mp h with rfl | h
        · refine fun hm => (List.mem_cons.mp hm).elim (fun he => hd ?_) (ih (hp ▸ List.mem_cons_self))
          simp [he]
        · exact ih (hp ▸ List.mem_cons_of_mem p h)

/-- A line of a script, unless it is empty, is spaces and a text without white space around it. -/
theorem exists_eq_row (hs : trimStart cs = cs.dropWhile (· = ' ')) (he : trimEnd cs = cs)
    (hn : cs ≠ []) : ∃ n rest, cs = row n rest ∧ IsTight rest := by
  obtain ⟨ds, c, hc⟩ := List.eq_nil_or_concat cs |>.resolve_left hn
  rw [List.concat_eq_append] at hc
  have hl : cs.getLast? = some c := by rw [hc, List.getLast?_concat]
  have hb : isBlank c = false := getLast?_trimEnd (he.symm ▸ hl)
  have hr : cs.dropWhile (· = ' ') ≠ [] := fun h => by
    have hall := List.dropWhile_eq_nil_iff.mp h c (List.mem_of_getLast? hl)
    rw [of_decide_eq_true hall] at hb
    exact absurd hb (by decide)
  have htw : cs.takeWhile (· = ' ') = List.replicate (cs.takeWhile (· = ' ')).length ' ' :=
    List.eq_replicate_of_mem fun d hd => by simpa using List.mem_takeWhile_imp hd
  have happ := List.takeWhile_append_dropWhile (p := (· = ' ')) (l := cs)
  refine ⟨(cs.takeWhile (· = ' ')).length, cs.dropWhile (· = ' '), ?_, ?_, ?_⟩
  · rw [row, ← htw, happ]
  · obtain ⟨d, hd⟩ := Option.ne_none_iff_exists'.mp (mt List.head?_eq_none_iff.mp hr)
    exact ⟨d, hd, head?_trimStart (hs.symm ▸ hd)⟩
  · refine ⟨c, ?_, hb⟩
    rw [← hl, ← happ, List.getLast?_append_of_ne_nil _ hr, happ]

theorem row_row (d n : Nat) : row d (row n cs) = row (d + n) cs := by
  rw [row, row, row, ← List.append_assoc, List.replicate_append_replicate]

/-- A line of a script that is written at a depth shows as itself to the right of it. -/
theorem row_ofRaw_row (hs : trimStart cs = cs.dropWhile (· = ' ')) (he : trimEnd cs = cs)
    (hn : cs ≠ []) : depth ≤ (Line.ofRaw tabWidth number (row depth cs)).indent ∧
      BlockStyle.row depth (Line.ofRaw tabWidth number (row depth cs)) = cs := by
  obtain ⟨n, rest, rfl, ht⟩ := exists_eq_row hs he hn
  have hb : (⟨number, depth + n, rest⟩ : Line).isBlank = false := by
    simp [Line.isBlank, ht.ne_nil]
  rw [row_row, Line.ofRaw_row ht]
  refine ⟨Nat.le_add_right depth n, ?_⟩
  rw [BlockStyle.row, hb, Nat.add_sub_cancel_left]
  rfl

theorem isBlank_ofRaw_replicate (n : Nat) :
    (Line.ofRaw tabWidth number (row n [])).isBlank = true := by
  rw [Line.isBlank, Line.ofRaw, trim, trimStart_row]
  rfl

/-- A row that shows a line of a script at a depth. A blank line may be any number of spaces. -/
def IsRowAt (depth : Nat) (line raw : List Char) : Prop :=
  if line = [] then ∃ n, raw = row n [] else raw = row depth line

theorem isRowAt_row (depth : Nat) (h : cs ≠ []) : IsRowAt depth cs (row depth cs) := by
  rw [IsRowAt, if_neg h]

theorem isRowAt_blank (depth n : Nat) : IsRowAt depth [] (row n []) := by
  rw [IsRowAt, if_pos rfl]
  exact ⟨n, rfl⟩

theorem IsRowAt.ofRaw {line raw : List Char}
    (hs : trimStart line = line.dropWhile (· = ' ')) (he : trimEnd line = line)
    (h : IsRowAt depth line raw) (tabWidth number : Nat) :
    ((Line.ofRaw tabWidth number raw).isBlank = false →
        depth ≤ (Line.ofRaw tabWidth number raw).indent) ∧
      BlockStyle.row depth (Line.ofRaw tabWidth number raw) = line := by
  by_cases hn : line = []
  · rw [IsRowAt, if_pos hn] at h
    obtain ⟨n, rfl⟩ := h
    have hb : (Line.ofRaw tabWidth number (row n [])).isBlank = true := isBlank_ofRaw_replicate n
    refine ⟨fun hf => ?_, by rw [BlockStyle.row, if_pos hb, hn]⟩
    rw [hb] at hf
    cases hf
  · rw [IsRowAt, if_neg hn] at h
    subst h
    exact ⟨fun _ => (row_ofRaw_row hs he hn).1, (row_ofRaw_row hs he hn).2⟩

end Text

namespace Layout

variable {o : Layout} {depth tabWidth number : Nat} {cs : List Char}

theorem isRow_scriptRow (hn : '\n' ∉ cs) (he : trimEnd cs = cs) : IsRow (o.scriptRow depth cs) := by
  rw [scriptRow]
  split
  · exact isRow_nil
  · refine isRow_row hn fun hr => ?_
    rw [← he] at hr
    exact absurd (getLast?_trimEnd hr) (by decide)

theorem isDeeper_scriptRow {e : Nat} (h : e < depth) : IsDeeper e (o.scriptRow depth cs) := by
  rw [scriptRow]
  split
  · exact Or.inl rfl
  · exact isDeeper_row h cs

theorem isRowAt_scriptRow : IsRowAt depth cs (o.scriptRow depth cs) := by
  by_cases hn : cs = []
  · subst hn
    rw [scriptRow]
    split
    · exact isRowAt_blank depth 0
    · exact isRowAt_blank depth depth
  · rw [scriptRow, if_neg fun h => hn h.1]
    exact isRowAt_row depth hn

/-- A script that is written row by row at a depth is read back. -/
theorem text_scriptRows {lines : List (List Char)} (h : IsScript lines) :
    BlockStyle.text .literal ((lines.map (o.scriptRow depth)).map (Line.ofRaw tabWidth number)) =
      ['\n'].intercalate lines := by
  have hr : ((lines.map (o.scriptRow depth)).map (Line.ofRaw tabWidth number)).map
      (BlockStyle.row depth) = lines := by
    simp only [List.map_map]
    refine (List.map_congr_left fun l hl => ?_).trans (List.map_id' lines)
    exact (isRowAt_scriptRow.ofRaw (h.start l hl) (h.stop l hl) tabWidth number).2
  rw [BlockStyle.text_literal (fun l hl => ?_) (by rw [hr]; exact h), hr]
  rw [List.map_map] at hl
  obtain ⟨cs, hm, rfl⟩ := List.mem_map.mp hl
  exact (isRowAt_scriptRow.ofRaw (h.start cs hm) (h.stop cs hm) tabWidth number).1

end Layout

end WorkflowLint
