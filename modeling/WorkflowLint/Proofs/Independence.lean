import WorkflowLint.Proofs.Locations
import WorkflowLint.Proofs.Relaxation

/-!
# Jobs on their own

What a lint says about a job, the search for cycles left out, depends on that job and on which names
jobs have. The rules go through all jobs, and some look at the workflow besides, but nothing that
they see elsewhere is carried to a job: workflows that have a job in common, and jobs of the same
names, have the same findings about it, in the same order.
-/
namespace WorkflowLint

/-- The workflows have jobs of the same names, and the same job of this name. -/
structure Workflow.AgreeAt (w w' : Workflow) (id : String) : Prop where
  names : ∀ n, n ∈ w.jobs.names ↔ n ∈ w'.jobs.names
  job : w.jobs.get? id = w'.jobs.get? id

theorem Table.filter_entries {α : Type} (t : Table α) (name : String) :
    (t.entries.filter fun e => e.1 = name) = (t.get? name).toList.map (name, ·) := by
  cases h : t.get? name with
  | none =>
      refine List.filter_eq_nil_iff.mpr fun e he hn => ?_
      obtain rfl : e.1 = name := of_decide_eq_true hn
      exact absurd (h.symm.trans (mem_entries_iff.mp he)) (by simp)
  | some value => exact filter_key_eq t.nodup_names (mem_entries_iff.mpr h)

namespace Rule

variable {w w' : Workflow} {id : String}

/-- What is noted about a job and its steps. -/
def notesOn (id : String) (notes : List Note) : List Note :=
  notes.filter fun n => n.subject.job? = some id

theorem notesOn_append_congr {ms ms' ns ns' : List Note} (hm : notesOn id ms = notesOn id ms')
    (hn : notesOn id ns = notesOn id ns') : notesOn id (ms ++ ns) = notesOn id (ms' ++ ns') := by
  simp only [notesOn, List.filter_append] at hm hn ⊢
  rw [hm, hn]

theorem notesOn_onWorkflow (issues : List Issue) : notesOn id (onWorkflow issues) = [] :=
  List.filter_eq_nil_iff.mpr fun n hn => by simp [subject_of_mem_onWorkflow hn, Subject.job?]

/-- Of what is noted job by job, the part about one job is what is noted at its turn. -/
theorem notesOn_onJobs (w : Workflow) (ofJob : String → Job → List Issue)
    (ofStep : Step → List Issue) :
    notesOn id (onJobs w ofJob ofStep) =
      (w.jobs.get? id).toList.flatMap fun job => onJob id job (ofJob id job) ofStep := by
  have hf : ∀ e ∈ w.jobs.entries, ∀ n ∈ onJob e.1 e.2 (ofJob e.1 e.2) ofStep,
      n.subject.job? = some e.1 := fun _ _ _ => job?_of_mem_onJob
  calc notesOn id (onJobs w ofJob ofStep)
      = (w.jobs.entries.filter fun e => some e.1 = some id).flatMap
          fun e => onJob e.1 e.2 (ofJob e.1 e.2) ofStep := filter_key_flatMap hf (some id)
    _ = _ := by simp only [Option.some.injEq, Table.filter_entries, List.flatMap_map]

/-- Of what is noted about a job, the part about one step is what is noted at its turn. -/
theorem filter_notesOn_onJobs {job : Job} {s : Step} {i : Nat} (hj : w.jobs.get? id = some job)
    (hs : job.steps[i]? = some s) (ofJob : String → Job → List Issue)
    (ofStep : Step → List Issue) :
    (notesOn id (onJobs w ofJob ofStep)).filter (fun n => n.subject.step? = some i) =
      (ofStep s).map (⟨.step id i s, ·⟩) := by
  have hz : (job.steps.zipIdx.map (·.2)).Nodup := by
    rw [List.zipIdx_map_snd]
    exact List.nodup_range'
  have hm : (s, i) ∈ job.steps.zipIdx := List.mem_zipIdx_iff_getElem?.mpr hs
  have hf : ∀ e ∈ job.steps.zipIdx, ∀ n ∈ (ofStep e.1).map (Note.mk (.step id e.2 e.1)),
      n.subject.step? = some e.2 := fun e _ n hn => by
    obtain ⟨_, -, rfl⟩ := List.mem_map.mp hn
    rfl
  have hnone : ((ofJob id job).map (Note.mk (.job id))).filter
      (fun n => n.subject.step? = some i) = [] :=
    List.filter_eq_nil_iff.mpr fun n hn => by
      obtain ⟨_, -, rfl⟩ := List.mem_map.mp hn
      simp [Subject.step?]
  rw [notesOn_onJobs, hj, Option.toList_some, List.flatMap_singleton, onJob, List.filter_append,
    hnone, List.nil_append, filter_key_flatMap hf]
  simp only [Option.some.injEq, filter_key_eq hz hm, List.flatMap_singleton]

theorem notesOn_onJobs_congr (h : w.AgreeAt w' id) {ofJob ofJob' : String → Job → List Issue}
    {ofStep : Step → List Issue} (hj : ∀ job, ofJob id job = ofJob' id job) :
    notesOn id (onJobs w ofJob ofStep) = notesOn id (onJobs w' ofJob' ofStep) := by
  simp only [notesOn_onJobs, h.job, hj]

/-- What is noted about the needs of a job depends on no more than the names of the jobs. -/
theorem needIssues_congr (h : ∀ n, n ∈ w.jobs.names ↔ n ∈ w'.jobs.names) (job : Job) :
    needIssues w id job = needIssues w' id job := by
  have hc : ∀ n, w.jobs.contains n = w'.jobs.contains n := fun n => by
    rw [Bool.eq_iff_iff, Table.contains_iff, Table.contains_iff, h]
  simp only [needIssues, hc]

end Rule

namespace Validator

variable {v : Validator} {w w' : Workflow} {id : String}

open Rule in
theorem notesOn_congr (h : w.AgreeAt w' id) : ∀ r ∈ v.rules, r.name ≠ "dependency_cycles" →
    notesOn id (r.notes (v.context w)) = notesOn id (r.notes (v.context w')) := by
  have hw (is js : List Issue) : notesOn id (onWorkflow is) = notesOn id (onWorkflow js) := by
    rw [notesOn_onWorkflow, notesOn_onWorkflow]
  have hj (ofJob : String → Job → List Issue) (ofStep : Step → List Issue) :
      notesOn id (onJobs w ofJob ofStep) = notesOn id (onJobs w' ofJob ofStep) :=
    notesOn_onJobs_congr h fun _ => rfl
  rw [forall_mem_rules_iff]
  simp only [Rule.workflowName, Rule.workflowTriggers, Rule.workflowJobs, Rule.jobShape,
    Rule.jobNeeds, Rule.permissions, Rule.hardcodedSecrets, Rule.resourceLimits,
    Rule.actionReference, Rule.runCommand, Rule.expressionInjection, Rule.artifactRetention,
    Rule.dependencyCycles, Rule.actionPinning, Rule.dependencyCaching, context, onSteps]
  refine ⟨⟨?_, ?_, ?_⟩, ⟨?_, ?_, ?_, ?_, ?_⟩, ⟨?_, ?_, ?_, ?_⟩, fun _ hd => absurd rfl hd, ?_, ?_⟩
  all_goals intro _
  · exact hw _ _
  · exact hw _ _
  · exact hw _ _
  · exact hj _ _
  -- This rule alone looks at more of the workflow when it is at a job.
  · exact notesOn_onJobs_congr h fun job => needIssues_congr h.names job
  · exact notesOn_append_congr (hw _ _) (hj _ _)
  · exact hj _ _
  · exact notesOn_append_congr (hj _ _) (hw _ _)
  · exact hj _ _
  · exact hj _ _
  · exact hj _ _
  · exact hj _ _
  · exact hj _ _
  · exact hw _ _

open Rule in
theorem filter_findings (r : Rule) (c : Context) (id : String) :
    (r.findings c).filter (fun f => f.job = some id ∧ f.rule ≠ "dependency_cycles") =
      if r.name = "dependency_cycles" then [] else (notesOn id (r.notes c)).map r.finding := by
  rw [findings, List.filter_map]
  split
  · refine List.map_eq_nil_iff.mpr (List.filter_eq_nil_iff.mpr fun n _ => ?_)
    simp only [finding, Function.comp_apply, ne_eq, *, not_true_eq_false, and_false, decide_false,
      Bool.false_eq_true, not_false_eq_true]
  · refine congrArg _ (List.filter_congr fun n _ => ?_)
    simp only [finding, Function.comp_apply, ne_eq, *, not_false_eq_true, and_true]

/-- What is found about a job, cycles left out, is found about it in every workflow that has the
same job and jobs of the same names. -/
theorem findings_at_job_congr (v : Validator) (h : w.AgreeAt w' id) :
    (v.lint w).filter (fun f => f.job = some id ∧ f.rule ≠ "dependency_cycles") =
      (v.lint w').filter fun f => f.job = some id ∧ f.rule ≠ "dependency_cycles" := by
  simp only [lint, List.filter_flatMap, filter_findings]
  refine List.flatMap_congr fun r hr => ?_
  split
  · rfl
  · rename_i hn
    rw [notesOn_congr h r hr hn]

def ofPreset : Validator :=
  ⟨.preset, presetPattern⟩

/-- A job on no known runner, which needs one that is there and one that is not. -/
def bareJob : Job :=
  { Job.blank with
    runsOn := "abacus"
    needs := ["test", "lint"]
    steps := [{ Step.blank with uses := some "checkout" }] }

def unnamed : Workflow :=
  { Workflow.blank with jobs := .ofList [("build", bareJob), ("test", Job.blank)] }

/-- Here the two jobs need each other. -/
def entangled : Workflow where
  name := "nightly"
  triggers := .ofList [("schedule", "")]
  permissions := .ofList [("contents", "write")]
  jobs := .ofList [("build", bareJob), ("test", { Job.blank with needs := ["build"] })]
  env := .ofList [("MODE", "full")]

theorem bareJob_findings_agree :
    unnamed.AgreeAt entangled "build" ∧
      (ofPreset.lint unnamed).filter
          (fun f => f.job = some "build" ∧ f.rule ≠ "dependency_cycles") =
        (ofPreset.lint entangled).filter
          (fun f => f.job = some "build" ∧ f.rule ≠ "dependency_cycles") ∧
      ((ofPreset.lint entangled).filter
          fun f => f.job = some "build" ∧ f.rule ≠ "dependency_cycles").map
        (fun f => (f.rule, f.step)) = [("job_shape", none), ("job_needs", none),
          ("action_reference", some 0), ("action_pinning", some 0)] := by
  have hn : unnamed.jobs.names = entangled.jobs.names := by decide
  have h : unnamed.AgreeAt entangled "build" := ⟨fun n => by rw [hn], by decide⟩
  exact ⟨h, findings_at_job_congr ofPreset h, by decide +kernel⟩

/-- The search for cycles is another matter: what it finds about a job is up to the other ones. -/
example : unnamed.needGraph.cycles = [] ∧ entangled.needGraph.cycles = [["build", "test"]] :=
  ⟨by cbv, by cbv⟩

end Validator

end WorkflowLint
