import WorkflowLint.Proofs.Bounds
import WorkflowLint.Report

/-!
# Checking and linting agree

A check runs the rules one after another and stops at the first error; a lint runs all of them. The
check is shown to be the lint with everything after its first error cut off, so that the two differ
on a document only where the lint has an error to show.
-/
namespace WorkflowLint

/-- `f` is an error, and nothing that stands before it in the list is one. -/
def FirstError (fs : List Finding) (f : Finding) : Prop :=
  ∃ passed rest, fs = passed ++ f :: rest ∧ (∀ g ∈ passed, g.isError = false) ∧ f.isError = true

theorem FirstError.cons {fs : List Finding} {f g : Finding} (hg : g.isError = false)
    (h : FirstError fs f) : FirstError (g :: fs) f := by
  obtain ⟨passed, rest, rfl, hp, hf⟩ := h
  refine ⟨g :: passed, rest, rfl, ?_, hf⟩
  intro x hx
  rcases List.mem_cons.mp hx with rfl | hx
  · exact hg
  · exact hp x hx

theorem FirstError.mem {fs : List Finding} {f : Finding} (h : FirstError fs f) : f ∈ fs := by
  obtain ⟨passed, rest, rfl, _, _⟩ := h
  simp

theorem FirstError.isError {fs : List Finding} {f : Finding} (h : FirstError fs f) :
    f.isError = true := by
  obtain ⟨_, _, _, _, hf⟩ := h
  exact hf

namespace Validator

/-! ## Screening -/

theorem screen_append (fs gs : List Finding) :
    screen (fs ++ gs) = (do let now ← screen fs; let later ← screen gs; return now ++ later) := by
  induction fs with
  | nil => cases h : screen gs <;> simp [screen, h, bind, Except.bind, pure, Except.pure]
  | cons f fs ih =>
      by_cases hf : f.isError
      · simp [screen, hf, bind, Except.bind]
      · simp only [List.cons_append, screen, hf, Bool.false_eq_true, ↓reduceIte, ih]
        cases screen fs with
        | error _ => rfl
        | ok _ => cases screen gs <;> rfl

/-- Screening passes a list on as it is, or fails with its first error. -/
theorem screen_eq (fs : List Finding) :
    ((∀ f ∈ fs, f.isError = false) ∧ screen fs = .ok fs) ∨
      ∃ f, FirstError fs f ∧ screen fs = .error f.toFailure := by
  induction fs with
  | nil => exact Or.inl ⟨by simp, rfl⟩
  | cons f fs ih =>
      cases hf : f.isError with
      | true => exact Or.inr ⟨f, ⟨[], fs, rfl, by simp, hf⟩, by simp [screen, hf]⟩
      | false =>
          rcases ih with ⟨hfs, hs⟩ | ⟨g, hg, hs⟩
          · exact Or.inl ⟨by simpa [hf] using hfs, by simp [screen, hf, hs, Except.map]⟩
          · exact Or.inr ⟨g, hg.cons hf, by simp [screen, hf, hs, Except.map]⟩

theorem runRules_eq_screen (c : Context) (rs : List Rule) :
    runRules c rs = screen (rs.flatMap (·.findings c)) := by
  induction rs with
  | nil => rfl
  | cons r rs ih => rw [List.flatMap_cons, screen_append, ← ih, runRules]

/-- Running the rules up to the first error is screening what all of them find. -/
theorem validate_eq_screen_lint (v : Validator) (w : Workflow) :
    v.validate w = screen (v.lint w) :=
  runRules_eq_screen (v.context w) v.rules

/-- A workflow is accepted exactly if the rules find no error in it. -/
theorem validate_eq_ok_iff {v : Validator} {w : Workflow} :
    (∃ fs, v.validate w = .ok fs) ↔ ∀ f ∈ v.lint w, f.isError = false := by
  rw [validate_eq_screen_lint]
  rcases screen_eq (v.lint w) with ⟨hn, hs⟩ | ⟨f, hf, hs⟩
  · simpa [hs] using hn
  · simp only [hs, reduceCtorEq, exists_false, false_iff]
    intro hn
    exact absurd hf.isError (by simp [hn f hf.mem])

/-! ## Failures of findings -/

theorem kind_of_mem_lint {v : Validator} {w : Workflow} {f : Finding} (h : f ∈ v.lint w) :
    ∃ group, f.kind = .rule group := by
  obtain ⟨r, _, hr⟩ := List.mem_flatMap.mp h
  obtain ⟨n, _, rfl⟩ := List.mem_map.mp hr
  exact ⟨r.group, rfl⟩

theorem toFailure_of_mem_lint {v : Validator} {w : Workflow} {f : Finding} (h : f ∈ v.lint w) :
    ∃ group, f.kind = .rule group ∧ f.toFailure = .violation group f.rule f.message := by
  obtain ⟨group, hg⟩ := kind_of_mem_lint h
  exact ⟨group, hg, by simp [Finding.toFailure, hg]⟩

/-! ## Reports -/

theorem lintText_of_error {v : Validator} {t : Nat} {text : List Char} {e : Stop}
    (h : Workflow.parse t text = .error e) :
    v.lintText t text = .error e.toFailure ∧ v.checkText t text = .error e.toFailure := by
  constructor
  · rw [lintText, reportText, h]
    rfl
  · rw [checkText, reportText, h]
    rfl

theorem lintText_of_ok {v : Validator} {t : Nat} {text : List Char} {w : Workflow}
    (h : Workflow.parse t text = .ok w) : v.lintText t text = .ok (.ofWorkflow w (v.lint w)) := by
  rw [lintText, reportText, h]
  rfl

theorem checkText_of_ok {v : Validator} {t : Nat} {text : List Char} {w : Workflow}
    (h : Workflow.parse t text = .ok w) :
    v.checkText t text = (v.validate w).map (.ofWorkflow w) := by
  rw [checkText, reportText, h]
  change ((v.validate w).bind fun fs => .ok (Report.ofWorkflow w fs)) = _
  cases v.validate w <;> rfl

/-- The report of a lint without errors is that of a check. With errors, the check fails with the
first of them. -/
theorem checkText_of_lint {v : Validator} {t : Nat} {text : List Char} {w : Workflow}
    (h : Workflow.parse t text = .ok w) :
    (∀ f ∈ v.lint w, f.isError = false) ∧
        v.checkText t text = .ok (.ofWorkflow w (v.lint w)) ∨
      ∃ f group, FirstError (v.lint w) f ∧ f.kind = .rule group ∧
        v.checkText t text = .error (.violation group f.rule f.message) := by
  rw [checkText_of_ok h, validate_eq_screen_lint]
  rcases screen_eq (v.lint w) with ⟨hn, hs⟩ | ⟨f, hf, hs⟩
  · exact Or.inl ⟨hn, by rw [hs]; rfl⟩
  · obtain ⟨group, hg, he⟩ := toFailure_of_mem_lint hf.mem
    exact Or.inr ⟨f, group, hf, hg, by rw [hs, he]; rfl⟩

theorem lintBytes_of_not_refused {v : Validator} {o : Options} {bytes : List UInt8}
    (h : ¬(bytes.length = 0 ∨ o.maxBytes < bytes.length)) :
    v.lintBytes o bytes = v.lintText o.tabWidth (Text.Utf8.decode bytes) ∧
      v.checkBytes o bytes = v.checkText o.tabWidth (Text.Utf8.decode bytes) := by
  simp only [lintBytes, checkBytes, receive, if_neg h, Except.bind, and_self]

/-- What a check and a lint of the same bytes come to. Both refuse a size outside the limit and a
document that cannot be read, in the same words, and both are aborted where columns cannot be
counted. Otherwise the lint reports every finding, and the check gives the same report if none is an
error, and fails with the first error if there is one. -/
theorem checkBytes_and_lintBytes (v : Validator) (o : Options) (bytes : List UInt8) :
    if bytes.length = 0 ∨ o.maxBytes < bytes.length then
      v.lintBytes o bytes = .error (.inputSize bytes.length o.maxBytes) ∧
        v.checkBytes o bytes = .error (.inputSize bytes.length o.maxBytes)
    else
      match Workflow.parse o.tabWidth (Text.Utf8.decode bytes) with
      | .error (.malformed e) =>
        v.lintBytes o bytes = .error (.malformed e.line e.message) ∧
          v.checkBytes o bytes = .error (.malformed e.line e.message)
      | .error .overflow =>
        ¬Line.Room o.tabWidth (Line.ofText o.tabWidth (Text.Utf8.decode bytes)) ∧
          v.lintBytes o bytes = .error .aborted ∧ v.checkBytes o bytes = .error .aborted
      | .ok w =>
        ∃ r : Report, v.lintBytes o bytes = .ok r ∧ r.workflow = w.name ∧ r.jobs = w.jobs.size ∧
          r.steps = w.stepCount ∧ r.findings = v.lint w ∧
          (r.hasErrors = false ∧ v.checkBytes o bytes = .ok r ∨
            ∃ f group, FirstError r.findings f ∧ f.kind = .rule group ∧
              v.checkBytes o bytes = .error (.violation group f.rule f.message)) := by
  split
  · rename_i hs
    simp only [lintBytes, checkBytes, receive, if_pos hs, Except.bind, and_self]
  · rename_i hs
    obtain ⟨hl, hc⟩ := lintBytes_of_not_refused (v := v) hs
    rw [hl, hc]
    split
    · rename_i e he
      exact lintText_of_error he
    · rename_i he
      exact ⟨fun hr => Workflow.parse_ne_overflow hr he, lintText_of_error he⟩
    · rename_i w hw
      refine ⟨.ofWorkflow w (v.lint w), lintText_of_ok hw, rfl, rfl, rfl, rfl, ?_⟩
      rcases checkText_of_lint (v := v) hw with ⟨hn, hok⟩ | ⟨f, group, hf, hk, herr⟩
      · exact Or.inl ⟨List.any_eq_false.mpr fun f hf => by simp [hn f hf], hok⟩
      · exact Or.inr ⟨f, group, hf, hk, herr⟩

/-- With tabs of the greatest width, some bytes of a fair size have no verdict at all. -/
theorem lintBytes_farRight : ∃ bytes : List UInt8, bytes.length ≠ 0 ∧ bytes.length ≤ 65536 ∧
    ∀ v : Validator, v.lintBytes ⟨2 ^ 64 - 1, 65536⟩ bytes = .error .aborted ∧
      v.checkBytes ⟨2 ^ 64 - 1, 65536⟩ bytes = .error .aborted := by
  let bytes := Text.Utf8.encode Workflow.farRight
  have hs : bytes.length ≠ 0 ∧ bytes.length ≤ 65536 ∧
      Text.Utf8.decode bytes = Workflow.farRight := by decide +kernel
  refine ⟨bytes, hs.1, hs.2.1, fun v => ?_⟩
  obtain ⟨hl, hc⟩ := lintBytes_of_not_refused (v := v) (o := ⟨2 ^ 64 - 1, 65536⟩)
    (not_or.mpr ⟨hs.1, Nat.not_lt.mpr hs.2.1⟩)
  rw [hl, hc, hs.2.2]
  exact lintText_of_error Workflow.parse_farRight

end Validator

end WorkflowLint
