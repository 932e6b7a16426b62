import WorkflowLint.Proofs.Resemblance

/-!
# The numbers of lines

Reading repeats the number of a line in its error and makes no other use of it. So an error is on a
line of the document, and documents that show the same on lines with other numbers describe the same
workflow, or have the same error on the same line.
-/
namespace WorkflowLint

variable {tabWidth : Nat} {ls ms : List Line}

namespace Line

/-- What a line shows, which is all but its number. -/
def content (l : Line) : Nat × List Char :=
  (l.indent, l.text)

def ofContent (number : Nat) (shown : Nat × List Char) : Line :=
  ⟨number, shown.1, shown.2⟩

@[simp] theorem content_renumber (f : Nat → Nat) (l : Line) : (l.renumber f).content = l.content :=
  rfl

theorem isSignificant_congr {l m : Line} (h : l.content = m.content) :
    l.isSignificant = m.isSignificant := by
  have ht : l.text = m.text := congrArg Prod.snd h
  simp only [isSignificant, isBlank, isComment, ht]

/-- The number of the line at an index. -/
def numberAt (ls : List Line) (i : Nat) : Nat :=
  (ls[i]?.map (·.number)).getD 0

/-- The lines are those that show the same under their indices, numbered as they are. -/
theorem map_renumber_indices (ls : List Line) :
    ((ls.map content).mapIdx ofContent).map (renumber (numberAt ls)) = ls := by
  refine List.ext_getElem? fun i => ?_
  rw [List.getElem?_map, List.getElem?_mapIdx, List.getElem?_map]
  cases hl : ls[i]? with
  | none => rfl
  | some l => simp [renumber, move, ofContent, content, numberAt, hl]

theorem number_of_getElem? {text : List Char} {l : Line} {i : Nat}
    (h : (ofText tabWidth text)[i]? = some l) : l.number = i + 1 := by
  rw [ofText, List.getElem?_mapIdx] at h
  obtain ⟨raw, -, rfl⟩ := Option.map_eq_some_iff.mp h
  rfl

end Line

namespace Workflow

/-- An error is on a line of the document. -/
theorem exists_line_of_error {e : SyntaxError} (h : read tabWidth ls = .error e) :
    ∃ l ∈ ls, l.number = e.line := by
  by_contra hn
  -- Otherwise the number of the error could be changed without a change to the document.
  let f : Nat → Nat := fun n => if n = e.line then n + 1 else n
  have hls : ls.map (Line.renumber f) = ls := by
    refine (List.map_congr_left fun l hl => ?_).trans (List.map_id' ls)
    have hne : l.number ≠ e.line := fun he => hn ⟨l, hl, he⟩
    simp [Line.renumber, Line.move, f, hne]
  have hr := read_renumber (f := f) tabWidth ls
  rw [hls, h] at hr
  have he : e.line = f e.line := congrArg SyntaxError.line (Except.error.inj hr)
  rw [show f e.line = e.line + 1 from if_pos rfl] at he
  omega

/-- Lines that show the same are read alike, up to the number in an error, which is that of one
line. -/
theorem read_of_content_eq (tabWidth : Nat) (h : ls.map Line.content = ms.map Line.content) :
    (∃ w, read tabWidth ls = .ok w ∧ read tabWidth ms = .ok w) ∨
      ∃ (i : Nat) (l m : Line) (value : List Char), ls[i]? = some l ∧ ms[i]? = some m ∧
        read tabWidth ls = .error ⟨l.number, value⟩ ∧
          read tabWidth ms = .error ⟨m.number, value⟩ := by
  have hls := read_renumber (f := Line.numberAt ls) tabWidth
    ((ls.map Line.content).mapIdx Line.ofContent)
  have hms := read_renumber (f := Line.numberAt ms) tabWidth
    ((ms.map Line.content).mapIdx Line.ofContent)
  rw [Line.map_renumber_indices] at hls hms
  rw [← h] at hms
  cases hr : read tabWidth ((ls.map Line.content).mapIdx Line.ofContent) with
  | ok w =>
      rw [hr] at hls hms
      exact .inl ⟨w, hls, hms⟩
  | error e =>
      rw [hr] at hls hms
      obtain ⟨k, hk, hn⟩ := exists_line_of_error hr
      obtain ⟨i, hi, rfl⟩ := List.mem_mapIdx.mp hk
      rw [List.length_map] at hi
      have hm : i < ms.length := by
        have hlen := congrArg List.length h
        rw [List.length_map, List.length_map] at hlen
        omega
      have hi' : e.line = i := hn.symm
      refine .inr ⟨i, ls[i], ms[i], e.value, List.getElem?_eq_getElem hi,
        List.getElem?_eq_getElem hm, hls.trans ?_, hms.trans ?_⟩
      · simp [Except.mapError, SyntaxError.renumber, Line.numberAt, hi', hi]
      · simp [Except.mapError, SyntaxError.renumber, Line.numberAt, hi', hm]

end Workflow

end WorkflowLint
