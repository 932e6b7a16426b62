import Mathlib.Data.List.Nodup
import WorkflowLint.Proofs.Verdict

/-!
# What a rule notes

A property of everything that a rule notes is a property of what it notes job by job and step by
step. The rules of a validator have different names, so that a finding tells which rule it is of.
-/
namespace WorkflowLint

/-! ## Walking through a workflow -/

namespace Rule

variable {P : Issue → Prop}

theorem forall_onWorkflow {issues : List Issue} :
    (∀ n ∈ onWorkflow issues, P n.issue) ↔ ∀ i ∈ issues, P i := by
  simp [onWorkflow]

theorem forall_onJob {id : String} {job : Job} {ofJob : List Issue} {ofStep : Step → List Issue} :
    (∀ n ∈ onJob id job ofJob ofStep, P n.issue) ↔
      (∀ i ∈ ofJob, P i) ∧ ∀ s ∈ job.steps, ∀ i ∈ ofStep s, P i := by
  simp only [onJob, List.mem_append, or_imp, forall_and, List.mem_map, List.mem_flatMap]
  refine and_congr ?_ ?_
  · exact ⟨fun h i hi => h _ ⟨i, hi, rfl⟩, fun h n ⟨i, hi, he⟩ => he ▸ h i hi⟩
  · constructor
    · intro h s hs i hi
      obtain ⟨k, hk, hks⟩ := List.mem_iff_getElem.mp hs
      have hz : (s, k) ∈ job.steps.zipIdx :=
        List.mem_zipIdx_iff_getElem?.mpr (by simp [hk, hks])
      exact h ⟨.step id k s, i⟩ ⟨(s, k), hz, i, hi, rfl⟩
    · rintro h n ⟨⟨s, k⟩, hz, i, hi, rfl⟩
      exact h s (List.mem_of_getElem? (List.mem_zipIdx_iff_getElem?.mp hz)) i hi

theorem forall_onJobs {w : Workflow} {ofJob : String → Job → List Issue}
    {ofStep : Step → List Issue} :
    (∀ n ∈ onJobs w ofJob ofStep, P n.issue) ↔
      ∀ id job, w.jobs.get? id = some job →
        (∀ i ∈ ofJob id job, P i) ∧ ∀ s ∈ job.steps, ∀ i ∈ ofStep s, P i := by
  simp only [onJobs, List.mem_flatMap]
  constructor
  · intro h id job hj
    have hb : ∀ n ∈ onJob id job (ofJob id job) ofStep, P n.issue := fun n hn =>
      h n ⟨(id, job), Table.mem_entries_iff.mpr hj, hn⟩
    exact forall_onJob.mp hb
  · rintro h n ⟨⟨id, job⟩, he, hn⟩
    exact forall_onJob.mpr (h id job (Table.mem_entries_iff.mp he)) n hn

theorem forall_onSteps {w : Workflow} {ofStep : Step → List Issue} :
    (∀ n ∈ onSteps w ofStep, P n.issue) ↔
      ∀ id job, w.jobs.get? id = some job → ∀ s ∈ job.steps, ∀ i ∈ ofStep s, P i := by
  simp only [onSteps, forall_onJobs, List.not_mem_nil, false_imp_iff, implies_true, true_and]

/-! ## Rules that find no error -/

/-- None of the issues is an error. -/
def Harmless (issues : List Issue) : Prop :=
  ∀ i ∈ issues, i.severity ≠ .error

/-- Nothing that is noted is an error. -/
def NoError (notes : List Note) : Prop :=
  ∀ n ∈ notes, n.issue.severity ≠ .error

/-- Nothing that the rule notes is an error. -/
def Passes (r : Rule) (c : Context) : Prop :=
  NoError (r.notes c)

theorem harmless_nil : Harmless [] := by simp [Harmless]

theorem harmless_singleton {i : Issue} : Harmless [i] ↔ i.severity ≠ .error := by simp [Harmless]

theorem harmless_append {is js : List Issue} :
    Harmless (is ++ js) ↔ Harmless is ∧ Harmless js := by
  simp [Harmless, or_imp, forall_and]

/-- An error that is noted where `q` holds. -/
theorem harmless_ite {q : Prop} [Decidable q] {i : Issue} (hi : i.severity = .error) :
    Harmless (if q then [i] else []) ↔ ¬q := by
  by_cases h : q <;> simp [h, harmless_nil, harmless_singleton, hi]

theorem noError_append {ms ns : List Note} : NoError (ms ++ ns) ↔ NoError ms ∧ NoError ns := by
  simp [NoError, or_imp, forall_and]

theorem noError_onWorkflow {issues : List Issue} :
    NoError (onWorkflow issues) ↔ Harmless issues :=
  forall_onWorkflow (P := fun i => i.severity ≠ .error)

theorem noError_onJobs {w : Workflow} {ofJob : String → Job → List Issue}
    {ofStep : Step → List Issue} :
    NoError (onJobs w ofJob ofStep) ↔ ∀ id job, w.jobs.get? id = some job →
      Harmless (ofJob id job) ∧ ∀ s ∈ job.steps, Harmless (ofStep s) :=
  forall_onJobs (P := fun i => i.severity ≠ .error)

theorem noError_onSteps {w : Workflow} {ofStep : Step → List Issue} :
    NoError (onSteps w ofStep) ↔
      ∀ id job, w.jobs.get? id = some job → ∀ s ∈ job.steps, Harmless (ofStep s) :=
  forall_onSteps (P := fun i => i.severity ≠ .error)

theorem finding_isError (r : Rule) (n : Note) :
    (r.finding n).isError = false ↔ n.issue.severity ≠ .error := by
  simp [finding, Finding.isError]

end Rule

namespace Validator

theorem mem_lint {v : Validator} {w : Workflow} {f : Finding} :
    f ∈ v.lint w ↔ ∃ r ∈ v.rules, ∃ n ∈ r.notes (v.context w), r.finding n = f := by
  simp [lint, Rule.findings]

theorem forall_passes_iff {v : Validator} {w : Workflow} :
    (∀ f ∈ v.lint w, f.isError = false) ↔ ∀ r ∈ v.rules, r.Passes (v.context w) := by
  constructor
  · intro h r hr n hn
    exact (r.finding_isError n).mp (h _ (mem_lint.mpr ⟨r, hr, n, hn, rfl⟩))
  · intro h f hf
    obtain ⟨r, hr, n, hn, rfl⟩ := mem_lint.mp hf
    exact (r.finding_isError n).mpr (h r hr n hn)

theorem ruleNames_nodup (v : Validator) : v.ruleNames.Nodup := by
  simp only [ruleNames, rules]
  cases v.policy.detectCycles <;> decide

/-- A rule has something to report exactly if some finding carries its name. -/
theorem forall_rule_ne_iff {v : Validator} {w : Workflow} {r : Rule} (hr : r ∈ v.rules) :
    (∀ f ∈ v.lint w, f.rule ≠ r.name) ↔ r.notes (v.context w) = [] := by
  constructor
  · intro h
    refine List.eq_nil_iff_forall_not_mem.mpr fun n hn => ?_
    exact h _ (mem_lint.mpr ⟨r, hr, n, hn, rfl⟩) rfl
  · intro h f hf he
    obtain ⟨r', hr', n, hn, rfl⟩ := mem_lint.mp hf
    have hrr : r' = r := List.inj_on_of_nodup_map v.ruleNames_nodup hr' hr he
    rw [hrr, h] at hn
    cases hn

end Validator

end WorkflowLint
