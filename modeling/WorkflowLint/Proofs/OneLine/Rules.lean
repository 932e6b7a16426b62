import WorkflowLint.Proofs.Admission
import WorkflowLint.Proofs.OneLine.Matches
import WorkflowLint.Proofs.OneLine.Workflow

/-!
# What findings quote

A message is made of fixed words, numbers and what it quotes, and what rules quote comes from the
policy or from parts of the workflow that hold no line break.
-/
namespace WorkflowLint

/-! ## Policies -/

/-- All texts of a policy. -/
def Policy.texts (p : Policy) : List String :=
  p.runnerLabels ++ p.permissionScopes ++ p.permissionLevels ++ p.dangerousCommands ++
    p.downloadMarkers ++ p.shellMarkers ++ p.secretMarkers ++ p.secretReferenceMarkers ++
    p.untrustedContexts ++ p.mutableRefs ++ p.cacheActions ++ p.uploadActions ++
    [p.inlineSecretPattern, p.localActionStart, p.containerActionStart]

/-- No text of the policy holds a line break. -/
def Policy.Quotable (p : Policy) : Prop :=
  ∀ s ∈ p.texts, OneLine s

/-! ## Issues -/

/-- The texts that are quoted in an issue. -/
def Issue.quoted : Issue → List String
  | unknownRunner runner known => runner :: known
  | unknownNeed id | selfNeed id => [id]
  | cycle ids => ids
  | pathTraversal uses | notRepository uses | notPinned uses => [uses]
  | dangerousCommand command => [command]
  | unknownPermission scope => [scope]
  | unknownLevel scope level known => scope :: level :: known
  | secretInEnv name | secretInCommand name => [name]
  | untrustedContext context => [context]
  | mutableRef uses ref => [uses, ref]
  | badRetention days _ => [days]
  | _ => []

def Issue.Quotable (i : Issue) : Prop :=
  ∀ s ∈ i.quoted, OneLine s

def Subject.Quotable (s : Subject) : Prop :=
  ∀ id, s.job? = some id → OneLine id

structure Note.Quotable (n : Note) : Prop where
  subject : n.subject.Quotable
  issue : n.issue.Quotable

theorem Subject.oneLine_stepTitle (s : Step) : OneLine (stepTitle s) :=
  oneLine_ofList.mpr fun hm => Text.newline_not_mem_firstLine _ (Text.trim_subset _ hm)

theorem Subject.Quotable.oneLine_text {s : Subject} (h : s.Quotable) : OneLine s.text := by
  cases s with
  | workflow => decide
  | job id =>
    have hid : OneLine id := h id rfl
    simp only [Subject.text, oneLine_append, hid]
    decide +kernel
  | step id index s =>
    have hid : OneLine id := h id rfl
    simp only [Subject.text, oneLine_append, hid, oneLine_nat, oneLine_stepTitle]
    decide +kernel

theorem Issue.oneLine_listing {names : List String} (h : ∀ n ∈ names, OneLine n) :
    OneLine (listing names) :=
  oneLine_intercalate (by decide) h

theorem Issue.oneLine_circle {ids : List String} (h : ∀ id ∈ ids, OneLine id) :
    OneLine (circle ids) :=
  oneLine_intercalate (by decide) fun id hm =>
    (List.mem_append.mp hm).elim (h id) fun hm => h id (List.mem_of_mem_take hm)

theorem Issue.Quotable.oneLine_message {i : Issue} {s : Subject} (hi : i.Quotable)
    (hs : s.Quotable) : OneLine (i.message s) := by
  have hs := hs.oneLine_text
  -- The equations of `message` are not used: their proofs would evaluate the texts.
  unfold Issue.message
  cases i with
  | cycle ids =>
    have hc : OneLine (circle ids) := oneLine_circle hi
    simp only [oneLine_append, hc]
    decide +kernel
  | unknownLevel scope level known =>
    simp only [Issue.Quotable, Issue.quoted, List.forall_mem_cons] at hi
    have hl := oneLine_listing hi.2.2
    simp only [Subject.sentence, oneLine_append, hs, hi, hl]
    decide +kernel
  | _ =>
    simp only [Issue.Quotable, Issue.quoted, List.forall_mem_cons] at hi
    simp only [Subject.sentence, oneLine_append, hs, hi, oneLine_nat, oneLine_int]
    decide +kernel

theorem Issue.Quotable.oneLine_fix {i : Issue} (hi : i.Quotable) {fix : String}
    (h : i.fix? = some fix) : OneLine fix := by
  unfold Issue.fix? at h
  cases i with
  | unknownRunner runner known =>
    have hl : OneLine (listing known) := oneLine_listing (List.forall_mem_cons.mp hi).2
    cases h
    simp only [oneLine_append, hl]
    decide +kernel
  | unknownNeed id | selfNeed id =>
    have hid : OneLine id := hi id List.mem_cons_self
    cases h
    simp only [oneLine_append, hid]
    decide +kernel
  | longRetention days most | badRetention days most =>
    cases h
    simp only [oneLine_append, oneLine_int]
    decide +kernel
  | _ => cases h <;> decide +kernel

/-! ## What rules note -/

namespace Rule

variable {w : Workflow} {p : Policy} {s : Step} {j : Job}

/-- All issues can be quoted. -/
def AllQuotable (issues : List Issue) : Prop :=
  ∀ i ∈ issues, i.Quotable

theorem allQuotable_nil : AllQuotable [] := by simp [AllQuotable]

theorem allQuotable_singleton {i : Issue} : AllQuotable [i] ↔ i.Quotable := by simp [AllQuotable]

theorem allQuotable_append {is js : List Issue} :
    AllQuotable (is ++ js) ↔ AllQuotable is ∧ AllQuotable js :=
  List.forall_mem_append

theorem allQuotable_of_quoted_eq_nil {i : Issue} (h : i.quoted = []) : AllQuotable [i] := by
  simp [allQuotable_singleton, Issue.Quotable, h]

theorem allQuotable_of_quoted_eq_singleton {i : Issue} {text : String} (h : i.quoted = [text])
    (ht : OneLine text) : AllQuotable [i] := by
  simpa [allQuotable_singleton, Issue.Quotable, h] using ht

theorem allQuotable_ite {q : Prop} [Decidable q] {i : Issue} (hi : AllQuotable [i]) :
    AllQuotable (if q then [i] else []) := by
  split
  · exact hi
  · exact allQuotable_nil

theorem quotable_onWorkflow {issues : List Issue} (h : AllQuotable issues) :
    ∀ n ∈ onWorkflow issues, n.Quotable := by
  intro n hn
  obtain ⟨i, hi, rfl⟩ := List.mem_map.mp hn
  exact ⟨(fun _ he => by cases he), h i hi⟩

/-- Jobs and steps that can be quoted are named in notes by jobs that can be quoted. -/
theorem quotable_onJobs {ofJob : String → Job → List Issue} {ofStep : Step → List Issue}
    (hw : w.Quotable) (hj : ∀ id j, OneLine id → j.Quotable → AllQuotable (ofJob id j))
    (hs : ∀ s, s.Quotable → AllQuotable (ofStep s)) : ∀ n ∈ onJobs w ofJob ofStep, n.Quotable := by
  intro n hn
  obtain ⟨⟨id, job⟩, he, hn⟩ := List.mem_flatMap.mp hn
  obtain ⟨hid, hq⟩ := hw.jobs _ he
  obtain hn | hn := List.mem_append.mp hn
  · obtain ⟨i, hi, rfl⟩ := List.mem_map.mp hn
    refine ⟨fun _ he => ?_, hj id job hid hq i hi⟩
    cases he
    exact hid
  · obtain ⟨⟨s, k⟩, hz, hn⟩ := List.mem_flatMap.mp hn
    obtain ⟨i, hi, rfl⟩ := List.mem_map.mp hn
    have hm : s ∈ job.steps := List.mem_of_getElem? (List.mem_zipIdx_iff_getElem?.mp hz)
    refine ⟨fun _ he => ?_, hs s (hq.steps s hm) i hi⟩
    cases he
    exact hid

theorem quotable_onSteps {ofStep : Step → List Issue} (hw : w.Quotable)
    (hs : ∀ s, s.Quotable → AllQuotable (ofStep s)) : ∀ n ∈ onSteps w ofStep, n.Quotable :=
  quotable_onJobs hw (fun _ _ _ _ => allQuotable_nil) hs

/-! ### Issues of jobs -/

theorem quotable_runnerIssues (hp : ∀ l ∈ p.runnerLabels, OneLine l) (hj : j.Quotable) :
    AllQuotable (runnerIssues p j) := by
  have hr : OneLine (String.ofList (Text.trim j.runsOn.toList)) :=
    oneLine_ofList.mpr fun hm => hj.runsOn (Text.trim_subset _ hm)
  unfold runnerIssues
  dsimp only
  split
  · exact allQuotable_of_quoted_eq_nil rfl
  · split
    · exact allQuotable_nil
    · exact allQuotable_singleton.mpr (List.forall_mem_cons.mpr ⟨hr, hp⟩)

theorem quotable_timeoutIssues : AllQuotable (timeoutIssues p j) := by
  unfold timeoutIssues
  dsimp only
  split
  · exact allQuotable_nil
  · exact allQuotable_of_quoted_eq_nil rfl

theorem quotable_needIssues {id : String} (hid : OneLine id) (hj : j.Quotable) :
    AllQuotable (needIssues w id j) := by
  intro i hi
  obtain ⟨n, hn, hi⟩ := List.mem_filterMap.mp hi
  split at hi
  · cases hi
    exact List.forall_mem_singleton.mpr (hj.needs n hn)
  · split at hi
    · cases hi
      exact List.forall_mem_singleton.mpr hid
    · cases hi

theorem quotable_permissionIssues {permissions : Table String}
    (hp : ∀ l ∈ p.permissionLevels, OneLine l) (ht : permissions.Quotable) :
    AllQuotable (permissionIssues p permissions) := by
  intro i hi
  obtain ⟨⟨scope, level⟩, he, hi⟩ := List.mem_filterMap.mp hi
  obtain ⟨hscope, hlevel⟩ := ht _ he
  dsimp only at hi
  split at hi
  · cases hi
    exact List.forall_mem_singleton.mpr hscope
  · split at hi
    · cases hi
      exact List.forall_mem_cons.mpr ⟨hscope, List.forall_mem_cons.mpr ⟨hlevel, hp⟩⟩
    · cases hi

theorem quotable_envIssues {env : Table String} (ht : env.Quotable) :
    AllQuotable (envIssues p env) := by
  intro i hi
  obtain ⟨⟨name, value⟩, he, hi⟩ := List.mem_filterMap.mp hi
  dsimp only at hi
  split at hi
  · cases hi
    exact List.forall_mem_singleton.mpr (ht _ he).1
  · cases hi

theorem quotable_jobLimitIssues {l : Limits} : AllQuotable (jobLimitIssues l j) :=
  allQuotable_append.mpr ⟨allQuotable_ite (allQuotable_of_quoted_eq_nil rfl),
    allQuotable_ite (allQuotable_of_quoted_eq_nil rfl)⟩

/-! ### Issues of steps -/

theorem quotable_actionIssues : AllQuotable (actionIssues s) := by
  unfold actionIssues
  split
  · exact allQuotable_of_quoted_eq_nil rfl
  · exact allQuotable_of_quoted_eq_nil rfl
  · exact allQuotable_nil

theorem quotable_referenceIssues (hs : s.Quotable) : AllQuotable (referenceIssues p s) := by
  unfold referenceIssues
  split
  · exact allQuotable_nil
  · rename_i uses hu
    have hq : OneLine uses := hs.uses uses hu
    split
    · exact allQuotable_nil
    · split
      · exact allQuotable_of_quoted_eq_singleton rfl hq
      · split
        · exact allQuotable_nil
        · exact allQuotable_of_quoted_eq_singleton rfl hq

theorem quotable_commandIssues (hp : ∀ c ∈ p.dangerousCommands, OneLine c) :
    AllQuotable (commandIssues p s) := by
  unfold commandIssues
  split
  · exact allQuotable_nil
  · split
    · rename_i dangerous hd
      have hq := hp dangerous (List.mem_of_find?_eq_some hd)
      exact allQuotable_of_quoted_eq_singleton rfl hq
    · exact allQuotable_ite (allQuotable_of_quoted_eq_nil rfl)

theorem quotable_inlineIssues {pattern : Pattern.Expr} (hp : pattern.avoids '\n' = true) :
    AllQuotable (inlineIssues pattern s) := by
  unfold inlineIssues
  split
  · exact allQuotable_nil
  · split
    · rename_i found hf
      have hn : OneLine (assignedName found) := oneLine_ofList.mpr fun hm =>
        Pattern.not_mem_of_find? hf hp (List.takeWhile_subset _ hm)
      exact allQuotable_of_quoted_eq_singleton rfl hn
    · exact allQuotable_nil

theorem mem_of_untrusted? {contexts : List String} {before : Option Char} {cs : List Char}
    {context : String} (h : untrusted? contexts before cs = some context) : context ∈ contexts := by
  induction cs generalizing before with
  | nil => cases h
  | cons c cs ih =>
    rw [untrusted?] at h
    split at h
    · rename_i found hf
      cases h
      split at hf
      · cases hf
      · unfold contextAt? at hf
        split at hf
        · exact List.mem_of_find?_eq_some hf
        · cases hf
    · exact ih h

theorem quotable_injectionIssues (hp : ∀ c ∈ p.untrustedContexts, OneLine c) :
    AllQuotable (injectionIssues p s) := by
  unfold injectionIssues
  split
  · exact allQuotable_nil
  · split
    · rename_i context hc
      have hq := hp context (mem_of_untrusted? hc)
      exact allQuotable_of_quoted_eq_singleton rfl hq
    · exact allQuotable_nil

theorem quotable_pinningIssues (hs : s.Quotable) : AllQuotable (pinningIssues p s) := by
  unfold pinningIssues
  split
  · exact allQuotable_nil
  · rename_i uses hu
    have hq : OneLine uses := hs.uses uses hu
    split
    · exact allQuotable_nil
    · split
      · exact allQuotable_of_quoted_eq_singleton rfl hq
      · rename_i ref hv
        obtain ⟨⟨inner, after⟩, ha, rfl⟩ := Option.map_eq_some_iff.mp hv
        have hr : OneLine (String.ofList after) :=
          oneLine_ofList.mpr fun hm => hq ((Entry.splitAtLast_subset ha).2 hm)
        have hm : (Issue.mutableRef uses (String.ofList after)).Quotable :=
          List.forall_mem_cons.mpr ⟨hq, List.forall_mem_singleton.mpr hr⟩
        exact allQuotable_ite (allQuotable_singleton.mpr hm)

theorem quotable_retentionIssues (hs : s.Quotable) : AllQuotable (retentionIssues p s) := by
  unfold retentionIssues
  dsimp only
  split
  · exact allQuotable_nil
  · rename_i raw hr
    have hq : OneLine raw := by
      split at hr
      · exact (hs.arguments _ (Table.mem_entries_iff.mpr hr)).2
      · cases hr
    split
    · exact allQuotable_of_quoted_eq_singleton rfl hq
    · exact allQuotable_ite (allQuotable_of_quoted_eq_nil rfl)

/-! ### Issues of the whole workflow -/

theorem quotable_cacheIssues : AllQuotable (cacheIssues p w) := by
  unfold cacheIssues
  split
  · exact allQuotable_nil
  · exact allQuotable_of_quoted_eq_nil rfl

theorem quotable_cycles (hw : w.Quotable) : ∀ n ∈ w.needGraph.cycles.map cycleNote, n.Quotable := by
  intro n hn
  obtain ⟨ids, hm, rfl⟩ := List.mem_map.mp hn
  have hc : w.needGraph.IsCycle ids :=
    (NeedGraph.explores_search w.needGraph_closed).valid.cycles ids hm
  have hids : ∀ id ∈ ids, OneLine id := by
    intro id hid
    have hnode : id ∈ w.needGraph.nodes := by
      cases hc.transGen hid hid with
      | single he => exact w.needGraph_closed _ _ he
      | tail _ he => exact w.needGraph_closed _ _ he
    obtain ⟨job, hj⟩ := Table.mem_names_iff.mp hnode
    exact (hw.jobs _ (Table.mem_entries_iff.mpr hj)).1
  refine ⟨fun id he => ?_, hids⟩
  cases he
  cases ids with
  | nil => decide
  | cons id ids => exact hids id List.mem_cons_self

end Rule

/-! ## Findings -/

namespace Validator

variable {v : Validator} {w : Workflow}

theorem oneLine_ruleName : ∀ r ∈ v.rules, OneLine r.name :=
  forall_mem_rules_iff.mpr ⟨by decide +kernel, by decide +kernel, by decide +kernel,
    fun _ => by decide +kernel, by decide +kernel⟩

open Rule in
/-- Whatever a rule notes can be quoted, if the policy and the workflow can. -/
theorem quotable_notes (hp : v.policy.Quotable) (hs : v.secretPattern.avoids '\n' = true)
    (hw : w.Quotable) : ∀ r ∈ v.rules, ∀ n ∈ r.notes (v.context w), n.Quotable := by
  have hrunners : ∀ l ∈ v.policy.runnerLabels, OneLine l :=
    fun l hl => hp l (by simp [Policy.texts, hl])
  have hlevels : ∀ l ∈ v.policy.permissionLevels, OneLine l :=
    fun l hl => hp l (by simp [Policy.texts, hl])
  have hcommands : ∀ c ∈ v.policy.dangerousCommands, OneLine c :=
    fun c hc => hp c (by simp [Policy.texts, hc])
  have hcontexts : ∀ c ∈ v.policy.untrustedContexts, OneLine c :=
    fun c hc => hp c (by simp [Policy.texts, hc])
  rw [forall_mem_rules_iff]
  simp only [Rule.workflowName, Rule.workflowTriggers, Rule.workflowJobs, Rule.jobShape,
    Rule.jobNeeds, Rule.permissions, Rule.hardcodedSecrets, Rule.resourceLimits,
    Rule.actionReference, Rule.runCommand, Rule.expressionInjection, Rule.artifactRetention,
    Rule.dependencyCycles, Rule.actionPinning, Rule.dependencyCaching, context]
  refine ⟨⟨?_, ?_, ?_⟩, ⟨?_, ?_, ?_, ?_, ?_⟩, ⟨?_, ?_, ?_, ?_⟩, fun _ => ?_, ?_, ?_⟩
  · exact quotable_onWorkflow (allQuotable_ite (allQuotable_of_quoted_eq_nil rfl))
  · exact quotable_onWorkflow (allQuotable_ite (allQuotable_of_quoted_eq_nil rfl))
  · exact quotable_onWorkflow (allQuotable_ite (allQuotable_of_quoted_eq_nil rfl))
  · refine quotable_onJobs hw (fun id j _ hj => ?_) fun s _ => quotable_actionIssues
    exact allQuotable_append.mpr ⟨allQuotable_append.mpr
      ⟨quotable_runnerIssues hrunners hj, quotable_timeoutIssues⟩,
      allQuotable_ite (allQuotable_of_quoted_eq_nil rfl)⟩
  · exact quotable_onJobs hw (fun id j hid hj => quotable_needIssues hid hj)
      fun _ _ => allQuotable_nil
  · refine List.forall_mem_append.mpr ⟨?_, ?_⟩
    · exact quotable_onWorkflow (quotable_permissionIssues hlevels hw.permissions)
    · exact quotable_onJobs hw
        (fun _ j _ hj => quotable_permissionIssues hlevels hj.permissions)
        fun _ _ => allQuotable_nil
  · exact quotable_onJobs hw (fun _ j _ hj => quotable_envIssues hj.env)
      fun s hq => allQuotable_append.mpr
        ⟨quotable_envIssues hq.env, quotable_inlineIssues hs⟩
  · refine List.forall_mem_append.mpr ⟨?_, ?_⟩
    · exact quotable_onJobs hw (fun _ _ _ _ => quotable_jobLimitIssues)
        fun _ _ => allQuotable_nil
    · refine quotable_onWorkflow ?_
      exact allQuotable_ite (allQuotable_of_quoted_eq_nil rfl)
  · exact quotable_onSteps hw fun s hq => quotable_referenceIssues hq
  · exact quotable_onSteps hw fun s _ => quotable_commandIssues hcommands
  · exact quotable_onSteps hw fun s _ => quotable_injectionIssues hcontexts
  · exact quotable_onSteps hw fun s hq => quotable_retentionIssues hq
  · exact quotable_cycles hw
  · exact quotable_onSteps hw fun s hq => quotable_pinningIssues hq
  · exact quotable_onWorkflow quotable_cacheIssues

end Validator

end WorkflowLint
