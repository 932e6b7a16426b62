import WorkflowLint.Proofs.CycleSearch
import WorkflowLint.Proofs.Notes

/-!
# Schedules

The rules on what jobs need are met exactly if the jobs can be run one after another. An order of
the nodes of a graph, the absence of a way back to where one came from, and a search that reports
nothing are the same thing: the search leaves its nodes in such an order, an order leaves no way
back, and a reported cycle is a way back.
-/
namespace WorkflowLint

namespace NeedGraph

variable {g : NeedGraph} {order : List String}

/-- An order of the nodes in which each comes after all that it leads to. -/
structure IsOrder (g : NeedGraph) (order : List String) : Prop where
  perm : order.Perm g.nodes
  earlier : ∀ before id after, order = before ++ id :: after → ∀ n ∈ g.next id, n ∈ before

/-- No node leads back to itself. -/
def Acyclic (g : NeedGraph) : Prop :=
  ∀ id, ¬Relation.TransGen g.Edge id id

theorem IsOrder.idxOf_lt (h : g.IsOrder order) (hn : g.nodes.Nodup) {a b : String}
    (he : g.Edge a b) : order.idxOf b < order.idxOf a := by
  obtain ⟨before, after, rfl⟩ := List.append_of_mem (h.perm.mem_iff.mpr he.1)
  have hb := h.earlier before a after rfl b he.2
  have ha : a ∉ before := by
    intro hm
    exact (List.nodup_append.mp (h.perm.nodup_iff.mpr hn)).2.2 a hm a (by simp) rfl
  rw [List.idxOf_append_of_mem hb, List.idxOf_append_of_notMem ha]
  exact Nat.lt_of_lt_of_le (List.idxOf_lt_length_of_mem hb) (Nat.le_add_right _ _)

theorem IsOrder.acyclic (h : g.IsOrder order) (hn : g.nodes.Nodup) : g.Acyclic := by
  intro id hid
  have hlt : ∀ {a b : String}, Relation.TransGen g.Edge a b → order.idxOf b < order.idxOf a := by
    intro a b hab
    induction hab with
    | single he => exact h.idxOf_lt hn he
    | tail _ he ih => exact Nat.lt_trans (h.idxOf_lt hn he) ih
  exact Nat.lt_irrefl _ (hlt hid)

theorem cycles_eq_nil_of_acyclic (hg : g.Closed) (h : g.Acyclic) : g.cycles = [] := by
  refine List.eq_nil_iff_forall_not_mem.mpr fun c hc => ?_
  have hcyc := (explores_search hg).valid.cycles c hc
  obtain ⟨a, ha⟩ := List.exists_mem_of_ne_nil c hcyc.ne_nil
  exact h a (hcyc.transGen ha ha)

/-- A search that reports nothing is done with the nodes in an order, last one first. -/
theorem isOrder_of_cycles_eq_nil (hg : g.Closed) (hn : g.nodes.Nodup) (h : g.cycles = []) :
    g.IsOrder g.search.done.reverse := by
  have hs := explores_search hg
  constructor
  · refine (List.reverse_perm _).trans ((List.perm_ext_iff_of_nodup hs.valid.nodup hn).mpr ?_)
    refine fun n => ⟨hs.valid.mem n, fun hm => ?_⟩
    exact (hs.reached n hm).resolve_right (by simp)
  · intro before id after he n hm
    have hd : g.search.done = after.reverse ++ id :: before.reverse := by
      rw [← List.reverse_reverse g.search.done, he]
      simp
    rcases hs.valid.covered _ _ _ hd n hm with hb | ⟨c, hc, _⟩
    · exact List.mem_reverse.mp hb
    · rw [cycles] at h
      rw [h] at hc
      cases hc

theorem cycles_eq_nil_iff_exists_order (hg : g.Closed) (hn : g.nodes.Nodup) :
    g.cycles = [] ↔ ∃ order, g.IsOrder order :=
  ⟨fun h => ⟨_, isOrder_of_cycles_eq_nil hg hn h⟩,
    fun ⟨_, h⟩ => cycles_eq_nil_of_acyclic hg (h.acyclic hn)⟩

theorem cycles_eq_nil_iff_acyclic (hg : g.Closed) (hn : g.nodes.Nodup) :
    g.cycles = [] ↔ g.Acyclic :=
  ⟨fun h => (isOrder_of_cycles_eq_nil hg hn h).acyclic hn, cycles_eq_nil_of_acyclic hg⟩

end NeedGraph

/-! ## What the jobs of a workflow need -/

namespace Workflow

variable {w : Workflow}

/-- `id` is a job that needs `n`. -/
def Needs (w : Workflow) (id n : String) : Prop :=
  ∃ job, w.jobs.get? id = some job ∧ n ∈ job.needs

def NeedsOthers (w : Workflow) : Prop :=
  ∀ id n, w.Needs id n → n ∈ w.jobs.names ∧ n ≠ id

/-- All jobs, each once, in an order in which each comes after the jobs that it needs. -/
structure IsSchedule (w : Workflow) (order : List String) : Prop where
  perm : order.Perm w.jobs.names
  earlier : ∀ before id after, order = before ++ id :: after → ∀ n, w.Needs id n → n ∈ before

theorem mem_next_needGraph {id n : String} :
    n ∈ w.needGraph.next id ↔ w.Needs id n ∧ n ∈ w.jobs.names ∧ n ≠ id := by
  simp only [needGraph, Needs]
  cases hj : w.jobs.get? id with
  | none => simp
  | some job =>
      simp only [List.mem_filter, Bool.and_eq_true, decide_eq_true_eq, ne_eq, Table.contains_iff,
        Option.some.injEq, exists_eq_left']
      exact and_congr_right fun _ => and_comm

theorem needGraph_closed (w : Workflow) : w.needGraph.Closed :=
  fun _ _ he => (mem_next_needGraph.mp he.2).2.1

theorem mem_next_needGraph_iff_needs (h : w.NeedsOthers) {id n : String} :
    n ∈ w.needGraph.next id ↔ w.Needs id n :=
  mem_next_needGraph.trans (and_iff_left_of_imp (h id n))

theorem isOrder_needGraph_iff (h : w.NeedsOthers) {order : List String} :
    w.needGraph.IsOrder order ↔ w.IsSchedule order := by
  constructor
  · intro ho
    refine ⟨ho.perm, fun before id after he n hn => ?_⟩
    exact ho.earlier before id after he n ((mem_next_needGraph_iff_needs h).mpr hn)
  · intro ho
    refine ⟨ho.perm, fun before id after he n hn => ?_⟩
    exact ho.earlier before id after he n ((mem_next_needGraph_iff_needs h).mp hn)

theorem edge_needGraph_iff_needs (h : w.NeedsOthers) {id n : String} :
    w.needGraph.Edge id n ↔ w.Needs id n := by
  rw [NeedGraph.Edge, mem_next_needGraph_iff_needs h]
  refine and_iff_right_of_imp fun ⟨job, hj, _⟩ => Table.mem_names_iff.mpr ⟨job, hj⟩

/-- The graph of a workflow reports no cycle exactly if no job needs itself through others. -/
theorem cycles_needGraph_eq_nil_iff (h : w.NeedsOthers) :
    w.needGraph.cycles = [] ↔ ∀ id, ¬Relation.TransGen w.Needs id id := by
  have he : w.needGraph.Edge = w.Needs :=
    funext fun _ => funext fun _ => propext (edge_needGraph_iff_needs h)
  rw [NeedGraph.cycles_eq_nil_iff_acyclic w.needGraph_closed w.jobs.nodup_names,
    NeedGraph.Acyclic, he]

theorem IsSchedule.needsOthers {order : List String} (h : w.IsSchedule order) : w.NeedsOthers := by
  rintro id n ⟨job, hj, hn⟩
  have hid : id ∈ w.jobs.names := Table.mem_names_iff.mpr ⟨job, hj⟩
  obtain ⟨before, after, rfl⟩ := List.append_of_mem (h.perm.mem_iff.mpr hid)
  have hb := h.earlier before id after rfl n ⟨job, hj, hn⟩
  refine ⟨h.perm.mem_iff.mp (by simp [hb]), ?_⟩
  rintro rfl
  exact (List.nodup_append.mp (h.perm.nodup_iff.mpr w.jobs.nodup_names)).2.2 n hb n (by simp) rfl

/-- The graph of a workflow has no cycle, and no need is unmet, exactly if there is a schedule. -/
theorem exists_isSchedule_iff :
    (∃ order, w.IsSchedule order) ↔ w.NeedsOthers ∧ w.needGraph.cycles = [] := by
  have hc := NeedGraph.cycles_eq_nil_iff_exists_order w.needGraph_closed w.jobs.nodup_names
  constructor
  · rintro ⟨order, h⟩
    exact ⟨h.needsOthers, hc.mpr ⟨order, (isOrder_needGraph_iff h.needsOthers).mpr h⟩⟩
  · rintro ⟨hn, h⟩
    obtain ⟨order, ho⟩ := hc.mp h
    exact ⟨order, (isOrder_needGraph_iff hn).mp ho⟩

end Workflow

/-! ## The rules -/

namespace Rule

theorem forall_needIssues {P : Issue → Prop} {w : Workflow} {id : String} {j : Job} :
    (∀ i ∈ needIssues w id j, P i) ↔ ∀ n ∈ j.needs,
      (n ∉ w.jobs.names → P (.unknownNeed n)) ∧ (n ∈ w.jobs.names → n = id → P (.selfNeed n)) := by
  simp only [needIssues, List.mem_filterMap, forall_exists_index, and_imp]
  rw [forall_comm]
  refine forall_congr' fun n => ?_
  by_cases hn : n ∈ w.jobs.names
  · have hc : w.jobs.contains n = true := Table.contains_iff.mpr hn
    by_cases hi : n = id
    · subst hi
      simp [hc, hn]
    · simp [hc, hn, hi]
  · have hc : w.jobs.contains n = false := by simpa using mt Table.contains_iff.mp hn
    simp [hc, hn]

theorem jobNeeds_notes_eq_nil_iff {c : Context} :
    jobNeeds.notes c = [] ↔ c.workflow.NeedsOthers := by
  rw [List.eq_nil_iff_forall_not_mem]
  refine (forall_onJobs (P := fun _ => False)).trans ?_
  simp only [forall_needIssues, List.not_mem_nil, false_imp_iff, implies_true, and_true]
  constructor
  · rintro h id n ⟨job, hj, hn⟩
    have := h id job hj n hn
    exact ⟨Classical.not_not.mp this.1, fun he => this.2 (Classical.not_not.mp this.1) he⟩
  · intro h id job hj n hn
    have := h id n ⟨job, hj, hn⟩
    exact ⟨fun hm => hm this.1, fun _ he => this.2 he⟩

theorem jobNeeds_passes_iff {c : Context} : jobNeeds.Passes c ↔ c.workflow.NeedsOthers := by
  rw [← jobNeeds_notes_eq_nil_iff, List.eq_nil_iff_forall_not_mem]
  refine (forall_onJobs (P := fun i => i.severity ≠ .error)).trans ?_
  refine Iff.trans ?_ (forall_onJobs (P := fun _ => False)).symm
  simp [forall_needIssues, Issue.severity]

theorem dependencyCycles_notes_eq_nil_iff {c : Context} :
    dependencyCycles.notes c = [] ↔ c.workflow.needGraph.cycles = [] := by
  simp [dependencyCycles]

theorem dependencyCycles_passes_iff {c : Context} :
    dependencyCycles.Passes c ↔ c.workflow.needGraph.cycles = [] := by
  simp [Passes, NoError, dependencyCycles, cycleNote, Issue.severity, List.eq_nil_iff_forall_not_mem]

end Rule

namespace Validator

/-- Where cycles are looked for, the rules on what jobs need report nothing exactly if the jobs can
be run in some order, and then in particular if the workflow is accepted. -/
theorem needs_unreported_iff_schedule (v : Validator) (w : Workflow)
    (hd : v.policy.detectCycles = true) :
    ((∀ f ∈ v.lint w, f.rule ≠ "job_needs" ∧ f.rule ≠ "dependency_cycles") ↔
        ∃ order, w.IsSchedule order) ∧
      ((∃ fs, v.validate w = .ok fs) → ∃ order, w.IsSchedule order) := by
  have hn : Rule.jobNeeds ∈ v.rules := by simp [rules]
  have hc : Rule.dependencyCycles ∈ v.rules := by simp [rules, hd]
  rw [Workflow.exists_isSchedule_iff]
  constructor
  · simp only [forall_and]
    refine and_congr ?_ ?_
    · exact (forall_rule_ne_iff hn).trans Rule.jobNeeds_notes_eq_nil_iff
    · exact (forall_rule_ne_iff hc).trans Rule.dependencyCycles_notes_eq_nil_iff
  · intro ha
    have hp := forall_passes_iff.mp (validate_eq_ok_iff.mp ha)
    exact ⟨Rule.jobNeeds_passes_iff.mp (hp _ hn), Rule.dependencyCycles_passes_iff.mp (hp _ hc)⟩

/-- Three jobs that need each other in a circle, and a fourth that needs one of them. -/
def circular : Workflow where
  name := "circular"
  triggers := ∅
  permissions := ∅
  jobs := .ofList [("a", { Job.blank with needs := ["c"] }),
    ("b", { Job.blank with needs := ["a", "a"] }), ("c", { Job.blank with needs := ["b"] }),
    ("d", { Job.blank with needs := ["a"] })]
  env := ∅

/-- A validator that looks for cycles, and for no secret in a command. -/
def cycleFinder : Validator :=
  ⟨{ Policy.preset with detectCycles := true }, .empty⟩

theorem circular_has_no_schedule :
    cycleFinder.policy.detectCycles = true ∧ ¬∃ order, circular.IsSchedule order := by
  refine ⟨rfl, fun ho => ?_⟩
  have hf := (needs_unreported_iff_schedule cycleFinder circular rfl).1.mpr ho
  have hc : Rule.dependencyCycles ∈ cycleFinder.rules := by simp [rules, cycleFinder]
  have hn := (forall_rule_ne_iff hc).mp fun f hm => (hf f hm).2
  have hr : circular.needGraph.cycles = [["a", "c", "b"]] := by cbv
  rw [Rule.dependencyCycles_notes_eq_nil_iff, context, hr] at hn
  cases hn

end Validator

end WorkflowLint
