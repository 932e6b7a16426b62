import WorkflowLint.Proofs.BlockScalars
import WorkflowLint.Proofs.Bounds
import WorkflowLint.Proofs.Numbers

/-!
# Fields that are not known

What stands below a field that is not known is never read, whatever keys it has. Other lines in its
place, or none, lead to the same workflow, or to the same error on the line that it was on.
-/
namespace WorkflowLint

variable {tabWidth : Nat} {p : Place} {text : List Char}

/-! ## Workflows that differ nowhere -/

namespace Place

/-- The line is read as a field, and it has no key, or none that is known where it stands. -/
def IsUnknown (p : Place) : Prop :=
  match p.role with
  | .setting => Workflow.field? p.head = none
  | .jobField => Job.field? p.head = none
  | .stepField => Step.field? p.head = none
  | _ => False

namespace IsUnknown

theorem role_ne (h : p.IsUnknown) : p.role ≠ .document := by
  intro hr
  simp [IsUnknown, hr] at h

theorem extent_eq (h : p.IsUnknown) : p.role.extent p.head = .nested := by
  unfold IsUnknown at h
  split at h
  · simp only [Role.extent, Workflow.extent, *]
  · simp only [Role.extent, Job.extent, *]
  · simp only [Role.extent, Step.extent, *]
  · cases h

theorem confines (h : p.IsUnknown) (field : ScalarField) : p.Confines tabWidth field p := by
  refine ⟨[], [], p.embeds_refl, "", 0, fun other _ => ?_⟩
  obtain ⟨⟨head, body⟩, role⟩ := p
  unfold IsUnknown at h
  split at h
  · rename_i hr
    cases hr
    intro w w' hw
    simp only [Workflow.readSection, h]
    exact congrArg Except.ok hw
  · rename_i hr
    cases hr
    intro j j' hj
    simp only [Job.readField, h]
    exact congrArg Except.ok hj
  · rename_i hr
    cases hr
    intro s s' hs
    simp only [Step.readField, h]
    exact hs
  · cases h

end IsUnknown

end Place

/-! ## Other lines in a text -/

/-- The number of a line, after lines below another one were removed and lines were inserted
there. -/
def shift (edge removed inserted number : Nat) : Nat :=
  if number ≤ edge then number else number + inserted - removed

/-- Lines of a document, and other lines in the place of some of them, that have numbers of their
own: a line that is in both is in the second one at the shifted number. -/
theorem Line.number_eq_shift {edge i : Nat} {l : Line} {removed inserted below : List Line}
    (hd : (ofText tabWidth text).drop edge = removed ++ below)
    (he : edge ≤ (ofText tabWidth text).length)
    (hl : ((ofText tabWidth text).take edge ++
      (inserted.map (renumber fun _ => 0) ++ below))[i]? = some l) (hn : l.number ≠ 0) :
    i + 1 = shift edge removed.length inserted.length l.number := by
  have ht : ((ofText tabWidth text).take edge).length = edge := by
    rw [List.length_take, Nat.min_eq_left he]
  by_cases hi : i < edge
  · rw [List.getElem?_append_left (ht.symm ▸ hi), List.getElem?_take_of_lt hi] at hl
    rw [number_of_getElem? hl, shift, if_pos (by omega)]
  · rw [List.getElem?_append_right (by omega), ht] at hl
    by_cases hm : i - edge < inserted.length
    · rw [List.getElem?_append_left (by rwa [List.length_map]), List.getElem?_map] at hl
      obtain ⟨m, -, rfl⟩ := Option.map_eq_some_iff.mp hl
      exact absurd rfl hn
    · rw [List.getElem?_append_right (by rw [List.length_map]; omega), List.length_map] at hl
      have hb : (ofText tabWidth text)[edge + (removed.length + (i - edge - inserted.length))]? =
          some l := by
        rw [← List.getElem?_drop, hd, List.getElem?_append_right (Nat.le_add_right _ _),
          Nat.add_sub_cancel_left, hl]
      rw [number_of_getElem? hb, shift, if_neg (by omega)]
      omega

theorem Line.number_ne_zero {l : Line} (h : l ∈ ofText tabWidth text) : l.number ≠ 0 := by
  obtain ⟨i, hi⟩ := List.getElem?_of_mem h
  rw [number_of_getElem? hi]
  omega

/-- A document that shows the same as another one with lines exchanged in it has the error of that
one where it has come to stand. -/
theorem Workflow.ofText_eq_shift {edge : Nat} {text' : List Char} {removed inserted below : List Line}
    (hd : (Line.ofText tabWidth text).drop edge = removed ++ below)
    (he : edge ≤ (Line.ofText tabWidth text).length)
    (hsame : read tabWidth ((Line.ofText tabWidth text).take edge ++
      (inserted.map (Line.renumber fun _ => 0) ++ below)) = ofText tabWidth text)
    (ht : (Line.ofText tabWidth text').map Line.content =
      ((Line.ofText tabWidth text).take edge ++ (inserted ++ below)).map Line.content) :
    ofText tabWidth text' = (ofText tabWidth text).mapError
      (SyntaxError.renumber (shift edge removed.length inserted.length)) := by
  have hcontent : ((Line.ofText tabWidth text).take edge ++
      (inserted.map (Line.renumber fun _ => 0) ++ below)).map Line.content =
        (Line.ofText tabWidth text').map Line.content := by
    rw [ht]
    simp [Function.comp_def]
  rcases read_of_content_eq tabWidth hcontent with
    ⟨w, hw, hw'⟩ | ⟨i, l, m, value, hl, hm, herr, herr'⟩
  · rw [hsame] at hw
    rw [hw]
    exact hw'
  · rw [hsame] at herr
    obtain ⟨k, hk, hn⟩ := exists_line_of_error herr
    have hne : l.number ≠ 0 := fun hz => Line.number_ne_zero hk (hn.trans hz)
    rw [herr, Except.mapError, SyntaxError.renumber, ← Line.number_eq_shift hd he hl hne,
      ← Line.number_of_getElem? hm]
    exact herr'

namespace Place

end Place

end WorkflowLint
