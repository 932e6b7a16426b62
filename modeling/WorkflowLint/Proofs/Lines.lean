import WorkflowLint.Proofs.Resemblance
import WorkflowLint.Proofs.Rows

/-!
# Lines of joined texts

A text is rows, each ended by a newline, and what stands behind the last newline, which is a line of
its own unless it is empty. So a text that ends where a line ends can be read apart from what is
written below it, up to the numbers of the lines.
-/
namespace WorkflowLint

namespace Text

variable {cs ds rest pad : List Char} {rows : List (List Char)} {tabWidth number : Nat}

/-! ## Rows and what is behind them -/

/-- What stands behind the last newline is a line, if there is anything. -/
def lastRow (rest : List Char) : List (List Char) :=
  if rest = [] then [] else [rest]

theorem splitOn_unlines_append (h : ∀ r ∈ rows, '\n' ∉ r) (hr : '\n' ∉ rest) :
    (unlines rows ++ rest).splitOn '\n' = rows ++ [rest] := by
  have hi : unlines rows ++ rest = ['\n'].intercalate (rows ++ [rest]) := by
    clear h
    induction rows with
    | nil => simp [unlines]
    | cons r rs ih =>
        rw [List.cons_append, List.intercalate_cons_of_ne_nil (by simp), ← ih]
        simp [unlines]
  rw [hi]
  refine List.splitOn_intercalate '\n' (fun r hm => ?_) (by simp)
  rcases List.mem_append.mp hm with hm | hm
  · exact h r hm
  · rwa [List.mem_singleton.mp hm]

theorem lines_unlines_append (h : ∀ r ∈ rows, '\n' ∉ r) (hr : '\n' ∉ rest) :
    lines (unlines rows ++ rest) = rows.map dropReturn ++ lastRow rest := by
  simp only [lines, splitOn_unlines_append h hr, lastRow]
  split <;> simp_all

theorem exists_rows (cs : List Char) :
    ∃ rows rest, cs = unlines rows ++ rest ∧ (∀ r ∈ rows, '\n' ∉ r) ∧ '\n' ∉ rest := by
  induction cs with
  | nil => exact ⟨[], [], rfl, by simp, by simp⟩
  | cons c cs ih =>
      obtain ⟨rows, rest, rfl, h, hr⟩ := ih
      by_cases hc : c = '\n'
      · exact ⟨[] :: rows, rest, by simp [unlines, hc], by simpa using h, hr⟩
      · cases rows with
        | nil => exact ⟨[], c :: rest, rfl, by simp, by simp [Ne.symm hc, hr]⟩
        | cons r rs =>
            obtain ⟨hn, hs⟩ := List.forall_mem_cons.mp h
            refine ⟨(c :: r) :: rs, rest, by simp [unlines], ?_, hr⟩
            exact List.forall_mem_cons.mpr ⟨by simp [Ne.symm hc, hn], hs⟩

/-- No line is left open at the end of the text. -/
def EndsLine (cs : List Char) : Prop :=
  cs = [] ∨ cs.getLast? = some '\n'

theorem EndsLine.exists_rows (h : EndsLine cs) :
    ∃ rows, cs = unlines rows ∧ ∀ r ∈ rows, '\n' ∉ r := by
  obtain ⟨rows, rest, rfl, hn, hr⟩ := Text.exists_rows cs
  rcases h with h | h
  · exact ⟨rows, by simp_all, hn⟩
  · cases hl : rest.getLast? with
    | none =>
        rw [List.getLast?_eq_none_iff.mp hl, List.append_nil]
        exact ⟨rows, rfl, hn⟩
    | some c =>
        rw [List.getLast?_append, hl] at h
        cases h
        exact absurd (List.mem_of_getLast? hl) hr

theorem EndsLine.append (h : EndsLine cs) (hd : EndsLine ds) : EndsLine (cs ++ ds) := by
  rcases hd with rfl | hd
  · rwa [List.append_nil]
  · exact Or.inr (by rw [List.getLast?_append, hd, Option.some_or])

theorem lines_append (h : EndsLine cs) (ds : List Char) : lines (cs ++ ds) = lines cs ++ lines ds := by
  obtain ⟨rows, rfl, hn⟩ := h.exists_rows
  obtain ⟨rows', rest, rfl, hn', hr⟩ := Text.exists_rows ds
  have hu : unlines rows ++ (unlines rows' ++ rest) = unlines (rows ++ rows') ++ rest := by
    simp [unlines]
  have hm : ∀ r ∈ rows ++ rows', '\n' ∉ r := fun r h => (List.mem_append.mp h).elim (hn r) (hn' r)
  have h0 : lines (unlines rows) = rows.map dropReturn := by
    have h0 : lines (unlines rows ++ []) = rows.map dropReturn ++ lastRow [] :=
      lines_unlines_append hn (by simp)
    rwa [List.append_nil, lastRow, if_pos rfl, List.append_nil] at h0
  rw [hu, lines_unlines_append hm hr, lines_unlines_append hn' hr, h0, List.map_append,
    List.append_assoc]

/-! ## White space at the ends of a row -/

theorem trimEnd_append (cs : List Char) (h : ∀ c ∈ pad, isBlank c = true) :
    trimEnd (cs ++ pad) = trimEnd cs := by
  rw [trimEnd, List.reverse_append,
    List.dropWhile_append_of_pos fun c hc => h c (List.mem_reverse.mp hc)]
  rfl

theorem trimEnd_append_cons (cs : List Char) {c : Char} (h : isBlank c = false) (ds : List Char) :
    trimEnd (cs ++ c :: ds) = cs ++ c :: trimEnd ds := by
  have hr : (cs ++ c :: ds).reverse = ds.reverse ++ c :: cs.reverse := by simp
  rw [trimEnd, trimEnd, hr, List.dropWhile_append]
  split
  · rename_i he
    rw [List.isEmpty_iff.mp he, List.dropWhile_cons, if_neg (by simp [h])]
    simp
  · simp

theorem trimEnd_cons {c : Char} (h : isBlank c = false) (ds : List Char) :
    trimEnd (c :: ds) = c :: trimEnd ds :=
  trimEnd_append_cons [] h ds

theorem trimStart_eq_nil_of_forall (h : ∀ c ∈ pad, isBlank c = true) : trimStart pad = [] :=
  List.dropWhile_eq_nil_iff.mpr h

theorem trim_append (cs : List Char) (h : ∀ c ∈ pad, isBlank c = true) :
    trim (cs ++ pad) = trim cs := by
  rw [trim, trim, trimStart, List.dropWhile_append, ← trimStart]
  split
  · rename_i hs
    have hs : trimStart cs = [] := List.isEmpty_iff.mp hs
    rw [hs, ← trimStart, trimStart_eq_nil_of_forall h]
  · exact trimEnd_append _ h

theorem width_concat_return (cs : List Char) :
    Line.width tabWidth (cs ++ ['\r']) = Line.width tabWidth cs := by
  fun_induction Line.width tabWidth cs with
  | case1 cs ih => rw [List.cons_append, Line.width, ih]
  | case2 cs ih => rw [List.cons_append, Line.width, ih]
  | case3 cs hs ht =>
      cases cs with
      | nil => rfl
      | cons c cs =>
          rw [List.cons_append]
          unfold Line.width
          split <;> simp_all

theorem isBlank_return : isBlank '\r' = true := by decide

theorem ofRaw_dropReturn (r : List Char) :
    Line.ofRaw tabWidth number (dropReturn r) = Line.ofRaw tabWidth number r := by
  unfold dropReturn
  split
  · rename_i h
    obtain ⟨s, rfl⟩ := List.getLast?_eq_some_iff.mp h
    rw [List.dropLast_concat, Line.ofRaw, Line.ofRaw, width_concat_return,
      trim_append s (List.forall_mem_singleton.mpr isBlank_return)]
  · rfl

end Text

/-! ## Lines -/

namespace Line

open Text

variable {tabWidth : Nat} {cs rest : List Char} {rows : List (List Char)}

theorem ofText_unlines_append (h : ∀ r ∈ rows, '\n' ∉ r) (hr : '\n' ∉ rest) :
    ofText tabWidth (unlines rows ++ rest) =
      (rows ++ lastRow rest).mapIdx fun i r => ofRaw tabWidth (i + 1) r := by
  rw [ofText, lines_unlines_append h hr, List.mapIdx_append, List.mapIdx_append, List.length_map]
  congr 1
  exact List.mapIdx_eq_iff.mpr fun i => by simp [ofRaw_dropReturn, Function.comp_def]

theorem ofText_append (h : EndsLine cs) (ds : List Char) :
    ofText tabWidth (cs ++ ds) =
      ofText tabWidth cs ++ (ofText tabWidth ds).map (renumber (· + (lines cs).length)) := by
  have hm : ∀ i r, ofRaw tabWidth (i + (lines cs).length + 1) r =
      (ofRaw tabWidth (i + 1) r).renumber (· + (lines cs).length) := by
    intro i r
    simp only [renumber, move, ofRaw, Nat.add_right_comm i 1, Nat.add_zero]
  rw [ofText, lines_append h, List.mapIdx_append]
  congr 1
  exact List.mapIdx_eq_iff.mpr fun i => by simp [ofText, hm, Function.comp_def]

end Line

end WorkflowLint
