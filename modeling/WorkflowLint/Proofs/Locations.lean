import WorkflowLint.Proofs.Admission

/-!
# Where findings stand

A lint lists its findings rule by rule, in the order of the rules and so of their groups. A finding
is in a job and a step that the workflow has, and a rule that goes through the jobs lists what it
finds job by job, and in each job from the job itself down through its steps. What comes first in
this order is what a check fails with.
-/
namespace WorkflowLint

/-! ## Lists in blocks -/

section Blocks

variable {α β κ : Type} [DecidableEq κ] {key : α → κ} {order : List κ} {as : List α}

/-- For each key in turn, the list has what is of that key, and nothing besides. -/
structure InBlocks (key : α → κ) (order : List κ) (as : List α) : Prop where
  nodup : order.Nodup
  eq : as = order.flatMap fun k => as.filter fun a => key a = k

theorem filter_key_eq (h : (as.map key).Nodup) {a : α} (ha : a ∈ as) :
    as.filter (fun b => key b = key a) = [a] := by
  induction as with
  | nil => cases ha
  | cons b bs ih =>
      obtain ⟨hb, hs⟩ := List.nodup_cons.mp h
      rcases List.mem_cons.mp ha with rfl | ha
      · have hn : bs.filter (fun c => key c = key a) = [] :=
          List.filter_eq_nil_iff.mpr fun c hc he =>
            hb (List.mem_map.mpr ⟨c, hc, of_decide_eq_true he⟩)
        rw [List.filter_cons_of_pos (by simp), hn]
      · have hne : key b ≠ key a := fun he => hb (he ▸ List.mem_map_of_mem ha)
        rw [List.filter_cons_of_neg (by simpa using hne), ih hs ha]

/-- A list whose keys are all different has blocks of one. -/
theorem inBlocks_map (h : (as.map key).Nodup) : InBlocks key (as.map key) as where
  nodup := h
  eq := by
    rw [List.flatMap_map]
    calc as = as.flatMap fun a => [a] := (List.flatMap_singleton' as).symm
      _ = _ := List.flatMap_congr fun a ha => (filter_key_eq h ha).symm

theorem filter_key_flatMap {f : α → List β} {keyOf : β → κ}
    (hf : ∀ a ∈ as, ∀ b ∈ f a, keyOf b = key a) (k : κ) :
    (as.flatMap f).filter (fun b => keyOf b = k) =
      (as.filter fun a => key a = k).flatMap f := by
  induction as with
  | nil => rfl
  | cons a as ih =>
      obtain ⟨ha, hs⟩ := List.forall_mem_cons.mp hf
      rw [List.flatMap_cons, List.filter_append, ih hs]
      by_cases hk : key a = k
      · rw [List.filter_cons_of_pos (by simpa using hk), List.flatMap_cons,
          List.filter_eq_self.mpr fun b hb => by simp [ha b hb, hk]]
      · rw [List.filter_cons_of_neg (by simpa using hk),
          List.filter_eq_nil_iff.mpr fun b hb => by simp [ha b hb, hk], List.nil_append]

/-- What is made of each member, and is of its key, is in the same blocks. -/
theorem InBlocks.flatMap (h : InBlocks key order as) {f : α → List β} {keyOf : β → κ}
    (hf : ∀ a ∈ as, ∀ b ∈ f a, keyOf b = key a) : InBlocks keyOf order (as.flatMap f) where
  nodup := h.nodup
  eq := by
    calc as.flatMap f = (order.flatMap fun k => as.filter fun a => key a = k).flatMap f := by
          rw [← h.eq]
      _ = order.flatMap fun k => (as.filter fun a => key a = k).flatMap f := List.flatMap_assoc
      _ = _ := List.flatMap_congr fun k _ => (filter_key_flatMap hf k).symm

end Blocks

/-! ## Places -/

/-- If both are in a job, then the first is in an earlier one, or both are in the same one and the
second is at a step that is not before that of the first, unless the first is at none. -/
def Subject.Precedes (s t : Subject) : Prop :=
  ∀ id ∈ s.job?, ∀ id' ∈ t.job?, id < id' ∨ id = id' ∧ ∀ i ∈ s.step?, ∃ k ∈ t.step?, i ≤ k

def Finding.Precedes (f g : Finding) : Prop :=
  ∀ id ∈ f.job, ∀ id' ∈ g.job, id < id' ∨ id = id' ∧ ∀ i ∈ f.step, ∃ k ∈ g.step, i ≤ k

/-- The workflow has the job or the step. -/
def Subject.IsIn (w : Workflow) : Subject → Prop
  | workflow => True
  | job id => id ∈ w.jobs.names
  | step id i s => ∃ job, w.jobs.get? id = some job ∧ job.steps[i]? = some s

theorem Subject.precedes_of_job?_eq_none {s t : Subject} (h : s.job? = none ∨ t.job? = none) :
    s.Precedes t := by
  intro id hid id' hid'
  rcases h with h | h
  · rw [h] at hid
    cases hid
  · rw [h] at hid'
    cases hid'

theorem Subject.IsIn.mem_names {w : Workflow} {s : Subject} (h : s.IsIn w) :
    ∀ id ∈ s.job?, id ∈ w.jobs.names := by
  intro id hid
  cases s with
  | workflow => cases hid
  | job => exact Option.some.inj hid ▸ h
  | step =>
      obtain ⟨job, hj, -⟩ := h
      exact Option.some.inj hid ▸ Table.mem_names_iff.mpr ⟨job, hj⟩

theorem Subject.IsIn.lt_length {w : Workflow} {s : Subject} (h : s.IsIn w) :
    ∀ i ∈ s.step?, ∃ id ∈ s.job?, ∃ job, w.jobs.get? id = some job ∧ i < job.steps.length := by
  intro i hi
  cases s with
  | workflow | job => cases hi
  | step id k s =>
      obtain ⟨job, hj, hs⟩ := h
      cases hi
      exact ⟨id, rfl, job, hj, (List.getElem?_eq_some_iff.mp hs).1⟩

/-! ## Walking through a workflow -/

namespace Rule

variable {w : Workflow} {id : String} {job : Job} {ofJob : List Issue} {ofStep : Step → List Issue}

theorem subject_of_mem_onWorkflow {issues : List Issue} {n : Note} (h : n ∈ onWorkflow issues) :
    n.subject = .workflow := by
  obtain ⟨i, -, rfl⟩ := List.mem_map.mp h
  rfl

theorem job?_of_mem_onJob {n : Note} (h : n ∈ onJob id job ofJob ofStep) :
    n.subject.job? = some id := by
  rcases List.mem_append.mp h with h | h
  · obtain ⟨i, -, rfl⟩ := List.mem_map.mp h
    rfl
  · obtain ⟨⟨s, k⟩, -, h⟩ := List.mem_flatMap.mp h
    obtain ⟨i, -, rfl⟩ := List.mem_map.mp h
    rfl

theorem pairwise_onWorkflow (issues : List Issue) :
    (onWorkflow issues).Pairwise fun m n => m.subject.Precedes n.subject :=
  List.pairwise_of_forall_mem_list fun m hm _ _ =>
    Subject.precedes_of_job?_eq_none (Or.inl (by rw [subject_of_mem_onWorkflow hm]; rfl))

theorem pairwise_onJob (id : String) (job : Job) (ofJob : List Issue)
    (ofStep : Step → List Issue) :
    (onJob id job ofJob ofStep).Pairwise fun m n => m.subject.Precedes n.subject := by
  have hj : ∀ t : Subject, t.job? = some id → (Subject.job id).Precedes t := by
    intro t ht a ha b hb
    cases ha
    rw [ht] at hb
    cases hb
    exact Or.inr ⟨rfl, fun i hi => by cases hi⟩
  have hz : job.steps.zipIdx.Pairwise fun a b => a.2 < b.2 := by
    refine List.pairwise_map.mp ?_
    rw [List.zipIdx_map_snd]
    exact List.pairwise_lt_range'
  refine List.pairwise_append.mpr ⟨?_, ?_, ?_⟩
  · exact List.pairwise_map.mpr (List.pairwise_of_forall fun _ _ => hj _ rfl)
  · refine List.pairwise_flatMap.mpr ⟨fun a _ => ?_, hz.imp fun {a b} hab m hm n hn => ?_⟩
    · refine List.pairwise_map.mpr (List.pairwise_of_forall fun _ _ => ?_)
      intro x hx y hy
      cases hx
      cases hy
      exact Or.inr ⟨rfl, fun i hi => ⟨i, hi, Nat.le_refl i⟩⟩
    · obtain ⟨i, -, rfl⟩ := List.mem_map.mp hm
      obtain ⟨k, -, rfl⟩ := List.mem_map.mp hn
      intro x hx y hy
      cases hx
      cases hy
      refine Or.inr ⟨rfl, fun i hi => ⟨b.2, rfl, ?_⟩⟩
      cases hi
      exact Nat.le_of_lt hab
  · intro m hm n hn
    obtain ⟨i, -, rfl⟩ := List.mem_map.mp hm
    have hn : n ∈ onJob id job ofJob ofStep := List.mem_append_right _ hn
    exact hj _ (job?_of_mem_onJob hn)

/-- What is noted job by job stands in the order of the jobs, which is that of their names. -/
theorem pairwise_onJobs (w : Workflow) (ofJob : String → Job → List Issue)
    (ofStep : Step → List Issue) :
    (onJobs w ofJob ofStep).Pairwise fun m n => m.subject.Precedes n.subject := by
  refine List.pairwise_flatMap.mpr ⟨fun e _ => pairwise_onJob e.1 e.2 _ ofStep, ?_⟩
  refine w.jobs.sorted.imp fun {a b} hab m hm n hn id hid id' hid' => Or.inl ?_
  rw [job?_of_mem_onJob hm] at hid
  rw [job?_of_mem_onJob hn] at hid'
  cases hid
  cases hid'
  exact hab

theorem isIn_of_mem_onJobs {ofJob : String → Job → List Issue} {n : Note}
    (h : n ∈ onJobs w ofJob ofStep) : n.subject.IsIn w := by
  obtain ⟨⟨id, job⟩, he, h⟩ := List.mem_flatMap.mp h
  have hj : w.jobs.get? id = some job := Table.mem_entries_iff.mp he
  rcases List.mem_append.mp h with h | h
  · obtain ⟨i, -, rfl⟩ := List.mem_map.mp h
    exact Table.mem_names_iff.mpr ⟨job, hj⟩
  · obtain ⟨⟨s, k⟩, hs, h⟩ := List.mem_flatMap.mp h
    obtain ⟨i, -, rfl⟩ := List.mem_map.mp h
    exact ⟨job, hj, List.mem_zipIdx_iff_getElem?.mp hs⟩

/-- The job that a cycle is noted for is one of the workflow. -/
theorem isIn_of_mem_dependencyCycles {c : Context} {n : Note} (h : n ∈ dependencyCycles.notes c) :
    n.subject.IsIn c.workflow := by
  obtain ⟨ids, hm, rfl⟩ := List.mem_map.mp h
  have hc : c.workflow.needGraph.IsCycle ids :=
    (NeedGraph.explores_search c.workflow.needGraph_closed).valid.cycles ids hm
  obtain ⟨id, rest, rfl⟩ := List.exists_cons_of_ne_nil hc.ne_nil
  have hid : id ∈ id :: rest := List.mem_cons_self
  cases hc.transGen hid hid with
  | single he => exact c.workflow.needGraph_closed _ _ he
  | tail _ he => exact c.workflow.needGraph_closed _ _ he

/-! ## Severities -/

/-- The issues are all of one severity. -/
def AllOf (severity : Severity) (issues : List Issue) : Prop :=
  ∀ i ∈ issues, i.severity = severity

variable {severity : Severity} {p : Policy} {s : Step}

theorem allOf_nil : AllOf severity [] :=
  List.forall_mem_nil _

theorem allOf_singleton {i : Issue} (h : i.severity = severity) : AllOf severity [i] :=
  List.forall_mem_singleton.mpr h

theorem allOf_append {is js : List Issue} (hi : AllOf severity is) (hj : AllOf severity js) :
    AllOf severity (is ++ js) :=
  List.forall_mem_append.mpr ⟨hi, hj⟩

theorem allOf_ite {q : Prop} [Decidable q] {i : Issue} (h : i.severity = severity) :
    AllOf severity (if q then [i] else []) := by
  split
  · exact allOf_singleton h
  · exact allOf_nil

theorem allOf_runnerIssues {j : Job} : AllOf .error (runnerIssues p j) := by
  fun_cases runnerIssues p j
  · exact allOf_singleton rfl
  · exact allOf_nil
  · exact allOf_singleton rfl

theorem allOf_timeoutIssues {j : Job} : AllOf .error (timeoutIssues p j) := by
  fun_cases timeoutIssues p j
  · exact allOf_nil
  · exact allOf_singleton rfl

theorem allOf_actionIssues : AllOf .error (actionIssues s) := by
  fun_cases actionIssues s
  · exact allOf_singleton rfl
  · exact allOf_singleton rfl
  · exact allOf_nil

theorem allOf_needIssues {j : Job} : AllOf .error (needIssues w id j) :=
  forall_needIssues.mpr fun _ _ => ⟨fun _ => rfl, fun _ _ => rfl⟩

theorem allOf_referenceIssues : AllOf .error (referenceIssues p s) := by
  fun_cases referenceIssues p s
  case case1 | case2 | case4 => exact allOf_nil
  case case3 | case5 => exact allOf_singleton rfl

theorem allOf_commandIssues : AllOf .error (commandIssues p s) := by
  fun_cases commandIssues p s
  case case1 | case4 => exact allOf_nil
  case case2 | case3 => exact allOf_singleton rfl

theorem allOf_permissionIssues {t : Table String} : AllOf .error (permissionIssues p t) := by
  intro i hi
  obtain ⟨⟨scope, level⟩, -, he⟩ := List.mem_filterMap.mp hi
  simp only at he
  split at he
  · cases he
    rfl
  · split at he <;> cases he
    rfl

theorem allOf_envIssues {t : Table String} : AllOf .error (envIssues p t) := by
  intro i hi
  obtain ⟨⟨name, value⟩, -, he⟩ := List.mem_filterMap.mp hi
  simp only at he
  split at he <;> cases he
  rfl

theorem allOf_inlineIssues {e : Pattern.Expr} : AllOf .error (inlineIssues e s) := by
  fun_cases inlineIssues e s
  case case1 | case3 => exact allOf_nil
  case case2 => exact allOf_singleton rfl

theorem allOf_injectionIssues : AllOf .error (injectionIssues p s) := by
  fun_cases injectionIssues p s
  case case1 | case3 => exact allOf_nil
  case case2 => exact allOf_singleton rfl

theorem allOf_pinningIssues : AllOf .warning (pinningIssues p s) := by
  fun_cases pinningIssues p s
  case case1 | case2 | case5 => exact allOf_nil
  case case3 | case4 => exact allOf_singleton rfl

theorem allOf_cacheIssues : AllOf .info (cacheIssues p w) := by
  fun_cases cacheIssues p w
  · exact allOf_nil
  · exact allOf_singleton rfl

theorem allOf_retentionIssues : AllOf .error (retentionIssues p s) := by
  fun_cases retentionIssues p s
  case case1 | case4 => exact allOf_nil
  case case2 | case3 => exact allOf_singleton rfl

/-- The severity of what a rule finds, by its name. -/
def severityOf (name : String) : Severity :=
  if name = "action_pinning" then .warning
  else if name = "dependency_caching" then .info
  else .error

/-! ## Walks -/

/-- Notes of one severity that are taken of the workflow, of its jobs in their order, or of both. -/
inductive Walk (w : Workflow) (severity : Severity) : List Note → Prop
  | workflow {issues : List Issue} (h : AllOf severity issues) :
    Walk w severity (onWorkflow issues)
  | jobs {ofJob : String → Job → List Issue} {ofStep : Step → List Issue}
    (hj : ∀ id j, AllOf severity (ofJob id j)) (hs : ∀ s, AllOf severity (ofStep s)) :
    Walk w severity (onJobs w ofJob ofStep)
  | workflowFirst {issues : List Issue} {notes : List Note} (h : AllOf severity issues)
    (t : Walk w severity notes) : Walk w severity (onWorkflow issues ++ notes)
  | workflowLast {issues : List Issue} {notes : List Note} (h : AllOf severity issues)
    (t : Walk w severity notes) : Walk w severity (notes ++ onWorkflow issues)

namespace Walk

variable {notes : List Note}

theorem steps {ofStep : Step → List Issue} (h : ∀ s, AllOf severity (ofStep s)) :
    Walk w severity (onSteps w ofStep) :=
  jobs (fun _ _ => allOf_nil) h

theorem severity_eq (h : Walk w severity notes) : ∀ n ∈ notes, n.issue.severity = severity := by
  induction h with
  | workflow h => exact forall_onWorkflow.mpr h
  | jobs hj hs => exact forall_onJobs.mpr fun id j _ => ⟨hj id j, fun s _ => hs s⟩
  | workflowFirst h _ ih => exact List.forall_mem_append.mpr ⟨forall_onWorkflow.mpr h, ih⟩
  | workflowLast h _ ih => exact List.forall_mem_append.mpr ⟨ih, forall_onWorkflow.mpr h⟩

theorem isIn (h : Walk w severity notes) : ∀ n ∈ notes, n.subject.IsIn w := by
  have hw {issues : List Issue} : ∀ n ∈ onWorkflow issues, n.subject.IsIn w := fun n hn => by
    rw [subject_of_mem_onWorkflow hn]
    trivial
  induction h with
  | workflow => exact hw
  | jobs => exact fun _ => isIn_of_mem_onJobs
  | workflowFirst _ _ ih => exact List.forall_mem_append.mpr ⟨hw, ih⟩
  | workflowLast _ _ ih => exact List.forall_mem_append.mpr ⟨ih, hw⟩

theorem pairwise (h : Walk w severity notes) :
    notes.Pairwise fun m n => m.subject.Precedes n.subject := by
  have hw {issues : List Issue} : ∀ n ∈ onWorkflow issues, n.subject.job? = none := fun n hn => by
    rw [subject_of_mem_onWorkflow hn]
    rfl
  induction h with
  | workflow => exact pairwise_onWorkflow _
  | jobs => exact pairwise_onJobs w _ _
  | workflowFirst _ _ ih =>
      exact List.pairwise_append.mpr ⟨pairwise_onWorkflow _, ih, fun m hm _ _ =>
        Subject.precedes_of_job?_eq_none (Or.inl (hw m hm))⟩
  | workflowLast _ _ ih =>
      exact List.pairwise_append.mpr ⟨ih, pairwise_onWorkflow _, fun _ _ n hn =>
        Subject.precedes_of_job?_eq_none (Or.inr (hw n hn))⟩

end Walk

end Rule

namespace Validator

variable {v : Validator} {w : Workflow}

open Rule in
/-- Every rule but the search for cycles goes through the workflow. -/
theorem walk_notes : ∀ r ∈ v.rules, r.name ≠ "dependency_cycles" →
    Walk w (severityOf r.name) (r.notes (v.context w)) := by
  rw [forall_mem_rules_iff]
  simp only [Rule.workflowName, Rule.workflowTriggers, Rule.workflowJobs, Rule.jobShape,
    Rule.jobNeeds, Rule.permissions, Rule.hardcodedSecrets, Rule.resourceLimits,
    Rule.actionReference, Rule.runCommand, Rule.expressionInjection, Rule.artifactRetention,
    Rule.dependencyCycles, Rule.actionPinning, Rule.dependencyCaching, context, severityOf,
    String.reduceEq, reduceIte]
  refine ⟨⟨?_, ?_, ?_⟩, ⟨?_, ?_, ?_, ?_, ?_⟩, ⟨?_, ?_, ?_, ?_⟩, fun _ h => absurd rfl h, ?_, ?_⟩
  all_goals intro _
  -- One goal for each rule that goes through the workflow: what it looks at says which way.
  · exact .workflow (allOf_ite rfl)
  · exact .workflow (allOf_ite rfl)
  · exact .workflow (allOf_ite rfl)
  · refine .jobs (fun _ j => ?_) fun s => allOf_actionIssues
    exact allOf_append (allOf_append allOf_runnerIssues allOf_timeoutIssues) (allOf_ite rfl)
  · exact .jobs (fun _ _ => allOf_needIssues) fun _ => allOf_nil
  · exact .workflowFirst allOf_permissionIssues
      (.jobs (fun _ _ => allOf_permissionIssues) fun _ => allOf_nil)
  · exact .jobs (fun _ _ => allOf_envIssues) fun _ => allOf_append allOf_envIssues allOf_inlineIssues
  · exact .workflowLast (allOf_ite rfl)
      (.jobs (fun _ _ => allOf_append (allOf_ite rfl) (allOf_ite rfl)) fun _ => allOf_nil)
  · exact .steps fun _ => allOf_referenceIssues
  · exact .steps fun _ => allOf_commandIssues
  · exact .steps fun _ => allOf_injectionIssues
  · exact .steps fun _ => allOf_retentionIssues
  · exact .steps fun _ => allOf_pinningIssues
  · exact .workflow allOf_cacheIssues

theorem eq_dependencyCycles {r : Rule} (hr : r ∈ v.rules) (hn : r.name = "dependency_cycles") :
    r = .dependencyCycles := by
  have hd : v.policy.detectCycles = true := by
    have hm : "dependency_cycles" ∈ v.ruleNames := hn ▸ List.mem_map_of_mem hr
    cases hd : v.policy.detectCycles with
    | true => rfl
    | false =>
        rw [ruleNames, rules, hd] at hm
        exact absurd hm (by decide)
  exact List.inj_on_of_nodup_map v.ruleNames_nodup hr (by simp [rules, hd]) hn

theorem isIn_of_mem_notes {r : Rule} (hr : r ∈ v.rules) :
    ∀ n ∈ r.notes (v.context w), n.subject.IsIn w := by
  by_cases hd : r.name = "dependency_cycles"
  · rw [eq_dependencyCycles hr hd]
    exact fun _ => Rule.isIn_of_mem_dependencyCycles
  · exact (walk_notes r hr hd).isIn

theorem severity_of_mem_notes {r : Rule} (hr : r ∈ v.rules) :
    ∀ n ∈ r.notes (v.context w), n.issue.severity = Rule.severityOf r.name := by
  by_cases hd : r.name = "dependency_cycles"
  · rw [eq_dependencyCycles hr hd]
    intro n hn
    obtain ⟨ids, -, rfl⟩ := List.mem_map.mp hn
    rfl
  · exact (walk_notes r hr hd).severity_eq

/-! ## Lints -/

theorem inBlocks_rules (v : Validator) : InBlocks Rule.name v.ruleNames v.rules :=
  inBlocks_map v.ruleNames_nodup

/-- The kinds of findings, in the order in which their rules run. -/
def kinds : List Kind :=
  [.rule .structural, .rule .security, .rule .resourceLimit, .rule .advisory]

theorem inBlocks_groups (v : Validator) : InBlocks (fun r => Kind.rule r.group) kinds v.rules where
  nodup := by decide
  eq := by
    rw [rules]
    cases v.policy.detectCycles <;> rfl

/-- The findings of a rule are what a lint has under its name. -/
theorem filter_lint {r : Rule} (hr : r ∈ v.rules) :
    (v.lint w).filter (fun f => f.rule = r.name) = r.findings (v.context w) := by
  have hf : ∀ s ∈ v.rules, ∀ f ∈ s.findings (v.context w), f.rule = s.name := fun s _ f hm => by
    obtain ⟨n, -, rfl⟩ := List.mem_map.mp hm
    rfl
  rw [lint, filter_key_flatMap hf, filter_key_eq v.ruleNames_nodup hr, List.flatMap_singleton]

theorem filter_lint_eq_nil {name : String} (h : name ∉ v.ruleNames) :
    (v.lint w).filter (fun f => f.rule = name) = [] := by
  refine List.filter_eq_nil_iff.mpr fun f hf he => h ?_
  obtain ⟨r, hr, n, -, rfl⟩ := mem_lint.mp hf
  exact of_decide_eq_true he ▸ List.mem_map_of_mem hr

/-- The order of a lint, and the places in it. -/
structure Arranged (v : Validator) (w : Workflow) (fs : List Finding) : Prop where
  rules : InBlocks Finding.rule v.ruleNames fs
  kinds : InBlocks Finding.kind Validator.kinds fs
  severity : ∀ f ∈ fs, f.severity = Rule.severityOf f.rule
  job : ∀ f ∈ fs, ∀ id ∈ f.job, id ∈ w.jobs.names
  step : ∀ f ∈ fs, ∀ i ∈ f.step, ∃ id ∈ f.job, ∃ job, w.jobs.get? id = some job ∧
    i < job.steps.length
  /-- The search for cycles alone does not go through the jobs in their order. -/
  inOrder : ∀ rule ≠ "dependency_cycles",
    (fs.filter fun f => f.rule = rule).Pairwise Finding.Precedes

theorem lint_arranged (v : Validator) (w : Workflow) : v.Arranged w (v.lint w) where
  rules := v.inBlocks_rules.flatMap fun r _ f hf => by
    obtain ⟨n, -, rfl⟩ := List.mem_map.mp hf
    rfl
  kinds := v.inBlocks_groups.flatMap fun r _ f hf => by
    obtain ⟨n, -, rfl⟩ := List.mem_map.mp hf
    rfl
  severity f hf := by
    obtain ⟨r, hr, n, hn, rfl⟩ := mem_lint.mp hf
    exact severity_of_mem_notes hr n hn
  job f hf := by
    obtain ⟨r, hr, n, hn, rfl⟩ := mem_lint.mp hf
    exact (isIn_of_mem_notes hr n hn).mem_names
  step f hf := by
    obtain ⟨r, hr, n, hn, rfl⟩ := mem_lint.mp hf
    exact (isIn_of_mem_notes hr n hn).lt_length
  inOrder rule hd := by
    by_cases hm : rule ∈ v.ruleNames
    · obtain ⟨r, hr, rfl⟩ := List.mem_map.mp hm
      rw [filter_lint hr]
      exact List.pairwise_map.mpr (walk_notes r hr hd).pairwise
    · rw [filter_lint_eq_nil hm]
      exact .nil

end Validator

end WorkflowLint
