import WorkflowLint.Proofs.Matching
import WorkflowLint.Proofs.Schedule

/-!
# Which workflows are accepted

The conditions under which a policy admits a workflow, level by level, without the rules that look
for their opposite. A validator for the policy accepts exactly the workflows that it admits: every
rule passes exactly if the conditions that it stands for are met, also where it reports only the
first thing that is wrong with a command or an action.
-/
namespace WorkflowLint

/-! ## Conditions -/

namespace Policy

variable (p : Policy)

/-- An action is named without going up in the tree, as an image, by its place in the same
repository, or by another repository. -/
structure AdmitsReference (uses : String) : Prop where
  noTraversal : ¬"..".toList <:+: uses.toList
  known : p.containerActionStart.toList <+: uses.toList ∨
    p.localActionStart.toList <+: uses.toList ∨ '/' ∈ uses.toList

/-- An expression that names a context which anyone may set has a quote right before it. -/
def Quotes (command : List Char) : Prop :=
  ∀ before after, command = before ++ '$' :: '\x7b' :: '\x7b' :: after →
    (∃ c ∈ p.untrustedContexts, c.toList <+: Text.trimStart after) →
    before.getLast? = some '"' ∨ before.getLast? = some '\''

structure AdmitsCommand (command : String) : Prop where
  harmless : ∀ d ∈ p.dangerousCommands, ¬d.toList <:+: command.toList
  noPipedDownload : ¬('|' ∈ command.toList ∧
    (∃ m ∈ p.downloadMarkers, m.toList <:+: command.toList) ∧
    ∃ m ∈ p.shellMarkers, m.toList <:+: command.toList)
  noSecret : ∀ e, Pattern.ofText? p.inlineSecretPattern.toList = some e →
    ¬e.Occurs command.toList
  quoted : p.Quotes command.toList

/-- A variable with the name of a secret is empty or refers to one. -/
def AdmitsEnv (env : Table String) : Prop :=
  ∀ name value, env.get? name = some value → value ≠ "" →
    (∃ m ∈ p.secretMarkers, m.toList <:+: (Text.lowercase name).toList) →
    ∃ m ∈ p.secretReferenceMarkers, m.toList <:+: value.toList

def AdmitsPermissions (permissions : Table String) : Prop :=
  ∀ scope level, permissions.get? scope = some level →
    scope ∈ p.permissionScopes ∧ level ∈ p.permissionLevels

/-- A number of days in a word of 64 bits, which is not too large. -/
def AdmitsRetention (days : String) : Prop :=
  ∃ n, Numeral.signed? (Text.trim days.toList) = some n ∧ Int64.minValue.toInt ≤ n ∧
    n ≤ p.limits.artifactRetentionDays.toInt

structure AdmitsStep (s : Step) : Prop where
  oneAction : s.uses.isSome = true ∧ s.run = none ∨ s.uses = none ∧ s.run.isSome = true
  reference : ∀ uses, s.uses = some uses → uses ≠ "" → p.AdmitsReference uses
  command : ∀ command, s.run = some command → p.AdmitsCommand command
  env : p.AdmitsEnv s.env
  retention : ∀ uses, s.uses = some uses → (∃ a ∈ p.uploadActions, a.toList <:+: uses.toList) →
    ∀ days, s.arguments.get? "retention-days" = some days → p.AdmitsRetention days

structure AdmitsJob (w : Workflow) (id : String) (j : Job) : Prop where
  runner : Text.trim j.runsOn.toList ≠ [] ∧
    ∃ label ∈ p.runnerLabels, label.toList <:+: Text.trim j.runsOn.toList
  timeout : 1 ≤ j.timeoutMinutes.toInt ∧ j.timeoutMinutes.toInt ≤ p.limits.timeoutMinutes.toInt ∧
    j.timeoutMinutes.toInt ≤ p.limits.jobTimeoutMinutes.toInt
  stepCount : 1 ≤ j.steps.length ∧ j.steps.length ≤ p.limits.stepsPerJob.toNat
  needs : ∀ n ∈ j.needs, n ∈ w.jobs.names ∧ n ≠ id
  permissions : p.AdmitsPermissions j.permissions
  env : p.AdmitsEnv j.env
  steps : ∀ s ∈ j.steps, p.AdmitsStep s

structure Admits (w : Workflow) : Prop where
  name : ∃ c ∈ w.name.toList, Text.isBlank c = false
  triggers : w.triggers.names ≠ []
  jobCount : 1 ≤ w.jobs.size ∧ w.jobs.size ≤ p.limits.jobs.toNat
  permissions : p.AdmitsPermissions w.permissions
  jobs : ∀ id j, w.jobs.get? id = some j → p.AdmitsJob w id j
  /-- Where cycles are looked for, no job needs itself, not even through other jobs. -/
  acyclic : p.detectCycles = true → ∀ id, ¬Relation.TransGen w.Needs id id

end Policy

/-! ## Structural rules -/

namespace Rule

variable {p : Policy} {c : Context}

theorem trim_eq_nil_iff {cs : List Char} :
    Text.trim cs = [] ↔ ∀ c ∈ cs, Text.isBlank c = true := by
  simp only [Text.trim, Text.trimEnd, Text.trimStart, List.reverse_eq_nil_iff,
    List.dropWhile_eq_nil_iff, List.mem_reverse]
  constructor
  · intro h c hc
    rw [← List.takeWhile_append_dropWhile (p := Text.isBlank) (l := cs)] at hc
    rcases List.mem_append.mp hc with ht | hd
    · exact List.mem_takeWhile_imp ht
    · exact h c hd
  · exact fun h c hc => h c (List.dropWhile_subset _ hc)

theorem workflowName_passes_iff :
    workflowName.Passes c ↔ ∃ ch ∈ c.workflow.name.toList, Text.isBlank ch = false := by
  rw [Passes, workflowName, noError_onWorkflow, harmless_ite rfl, isVoid, decide_eq_true_iff,
    trim_eq_nil_iff]
  simp

theorem workflowTriggers_passes_iff :
    workflowTriggers.Passes c ↔ c.workflow.triggers.names ≠ [] := by
  rw [Passes, workflowTriggers, noError_onWorkflow, harmless_ite rfl]
  simp [Table.isEmpty, Table.names]

theorem workflowJobs_passes_iff : workflowJobs.Passes c ↔ 1 ≤ c.workflow.jobs.size := by
  rw [Passes, workflowJobs, noError_onWorkflow, harmless_ite rfl]
  simp [Table.isEmpty, Table.size, Nat.one_le_iff_ne_zero]

theorem harmless_runnerIssues {j : Job} : Harmless (runnerIssues p j) ↔
    Text.trim j.runsOn.toList ≠ [] ∧
      ∃ label ∈ p.runnerLabels, label.toList <:+: Text.trim j.runsOn.toList := by
  simp only [runnerIssues]
  have he : String.ofList (Text.trim j.runsOn.toList) = "" ↔ Text.trim j.runsOn.toList = [] :=
    String.ofList_eq_empty_iff
  have hm : Text.mentionsAny (String.ofList (Text.trim j.runsOn.toList)) p.runnerLabels = true ↔
      ∃ label ∈ p.runnerLabels, label.toList <:+: Text.trim j.runsOn.toList := by
    rw [Text.mentionsAny_iff, String.toList_ofList]
  split
  · rename_i h
    simp [harmless_singleton, Issue.severity, he.mp h]
  · rename_i h
    rw [← hm, ne_eq, ← he]
    split <;> simp_all [harmless_singleton, harmless_nil, Issue.severity]

theorem harmless_timeoutIssues {j : Job} : Harmless (timeoutIssues p j) ↔
    1 ≤ j.timeoutMinutes.toInt ∧ j.timeoutMinutes.toInt ≤ p.limits.timeoutMinutes.toInt := by
  have hr : 0 < j.timeoutMinutes ∧ j.timeoutMinutes ≤ p.limits.timeoutMinutes ↔
      1 ≤ j.timeoutMinutes.toInt ∧ j.timeoutMinutes.toInt ≤ p.limits.timeoutMinutes.toInt := by
    rw [Int64.lt_iff_toInt_lt, Int64.le_iff_toInt_le, Int64.toInt_zero, Int.lt_iff_add_one_le,
      Int.zero_add]
  rw [← hr, timeoutIssues]
  split <;> simp_all [harmless_singleton, harmless_nil, Issue.severity]

theorem harmless_actionIssues {s : Step} : Harmless (actionIssues s) ↔
    s.uses.isSome = true ∧ s.run = none ∨ s.uses = none ∧ s.run.isSome = true := by
  simp only [actionIssues]
  cases s.uses <;> cases s.run <;> simp [harmless_singleton, harmless_nil, Issue.severity]

/-! ## Security rules -/

theorem harmless_referenceIssues {s : Step} : Harmless (referenceIssues p s) ↔
    ∀ uses, s.uses = some uses → uses ≠ "" → p.AdmitsReference uses := by
  cases hu : s.uses with
  | none => simp [referenceIssues, hu, harmless_nil]
  | some uses =>
      have hs : Text.mentions uses "/" = true ↔ '/' ∈ uses.toList :=
        Text.mentions_iff.trans (List.singleton_infix_iff _ _)
      have hk : (p.isContainerAction uses || p.isLocalAction uses || Text.mentions uses "/") = true ↔
          p.containerActionStart.toList <+: uses.toList ∨
            p.localActionStart.toList <+: uses.toList ∨ '/' ∈ uses.toList := by
        rw [Bool.or_eq_true, Bool.or_eq_true, hs, or_assoc]
        exact or_congr Text.startsWith_iff (or_congr Text.startsWith_iff Iff.rfl)
      simp only [referenceIssues, hu, Option.some.injEq, forall_eq']
      split
      · simp_all [harmless_nil]
      · split
        · rename_i ht
          simp only [harmless_singleton]
          refine iff_of_false (fun h => h rfl) fun h => ?_
          exact (h ‹_›).noTraversal (Text.mentions_iff.mp ht)
        · rename_i ht
          have ht' := mt Text.mentions_iff.mpr ht
          split
          · rename_i hc
            exact iff_of_true harmless_nil fun _ => ⟨ht', hk.mp hc⟩
          · rename_i hc
            simp only [harmless_singleton]
            exact iff_of_false (fun h => h rfl) fun h => hc (hk.mpr (h ‹_›).known)

theorem isPipedDownload_iff {command : String} : isPipedDownload p command = true ↔
    '|' ∈ command.toList ∧ (∃ m ∈ p.downloadMarkers, m.toList <:+: command.toList) ∧
      ∃ m ∈ p.shellMarkers, m.toList <:+: command.toList := by
  have hs : Text.mentions command "|" = true ↔ '|' ∈ command.toList :=
    Text.mentions_iff.trans (List.singleton_infix_iff _ _)
  rw [isPipedDownload, Bool.and_eq_true, Bool.and_eq_true, hs, Text.mentionsAny_iff,
    Text.mentionsAny_iff, and_assoc]

theorem harmless_commandIssues {s : Step} : Harmless (commandIssues p s) ↔
    ∀ command, s.run = some command →
      (∀ d ∈ p.dangerousCommands, ¬d.toList <:+: command.toList) ∧
        ¬('|' ∈ command.toList ∧ (∃ m ∈ p.downloadMarkers, m.toList <:+: command.toList) ∧
          ∃ m ∈ p.shellMarkers, m.toList <:+: command.toList) := by
  cases hr : s.run with
  | none => simp [commandIssues, hr, harmless_nil]
  | some command =>
      simp only [commandIssues, hr, Option.some.injEq, forall_eq', ← isPipedDownload_iff]
      split
      · rename_i d hd
        simp only [harmless_singleton]
        refine iff_of_false (fun h => h rfl) fun h => ?_
        exact h.1 d (List.mem_of_find?_eq_some hd) (Text.mentions_iff.mp (List.find?_some hd))
      · rename_i hd
        rw [harmless_ite rfl]
        refine (and_iff_right fun d hm hi => ?_).symm
        exact List.find?_eq_none.mp hd d hm (Text.mentions_iff.mpr hi)

theorem harmless_permissionIssues {t : Table String} :
    Harmless (permissionIssues p t) ↔ p.AdmitsPermissions t := by
  simp only [Harmless, permissionIssues, List.mem_filterMap, Prod.exists, Table.mem_entries_iff]
  constructor
  · intro h scope level hg
    by_contra hn
    by_cases hs : scope ∈ p.permissionScopes
    · have hl : level ∉ p.permissionLevels := fun hl => hn ⟨hs, hl⟩
      exact h _ ⟨scope, level, hg, by rw [if_neg (not_not_intro hs), if_pos hl]⟩ rfl
    · exact h _ ⟨scope, level, hg, by rw [if_pos hs]⟩ rfl
  · rintro h i ⟨scope, level, hg, hi⟩
    obtain ⟨hs, hl⟩ := h scope level hg
    rw [if_neg (not_not_intro hs), if_neg (not_not_intro hl)] at hi
    cases hi

theorem harmless_envIssues {t : Table String} : Harmless (envIssues p t) ↔ p.AdmitsEnv t := by
  simp only [Harmless, envIssues, List.mem_filterMap, Prod.exists, Table.mem_entries_iff]
  have hs : ∀ name value, isSecret p name value = true ↔ value ≠ "" ∧
      (∃ m ∈ p.secretMarkers, m.toList <:+: (Text.lowercase name).toList) ∧
      ¬∃ m ∈ p.secretReferenceMarkers, m.toList <:+: value.toList := by
    intro name value
    rw [← Text.mentionsAny_iff, ← Text.mentionsAny_iff]
    simp [isSecret, and_assoc]
  constructor
  · intro h name value hg hv hm
    by_contra hn
    exact h _ ⟨name, value, hg, if_pos ((hs name value).mpr ⟨hv, hm, hn⟩)⟩ rfl
  · rintro h i ⟨name, value, hg, hi⟩
    have hn : isSecret p name value ≠ true := fun hm => by
      obtain ⟨hv, hm, hr⟩ := (hs name value).mp hm
      exact hr (h name value hg hv hm)
    rw [if_neg hn] at hi
    cases hi

theorem harmless_inlineIssues {e : Pattern.Expr} {s : Step} : Harmless (inlineIssues e s) ↔
    ∀ command, s.run = some command → ¬e.Occurs command.toList := by
  cases hr : s.run with
  | none => simp [inlineIssues, hr, harmless_nil]
  | some command =>
      simp only [inlineIssues, hr, Option.some.injEq, forall_eq', ← Pattern.isSome_find?_iff]
      cases Pattern.find? e command.toList <;>
        simp [harmless_nil, harmless_singleton, Issue.severity]

theorem isSome_contextAt?_iff {contexts : List String} {cs : List Char} :
    (contextAt? contexts cs).isSome = true ↔ ∃ body, cs = '$' :: '\x7b' :: '\x7b' :: body ∧
      ∃ c ∈ contexts, c.toList <+: Text.trimStart body := by
  fun_cases contextAt? contexts cs <;> simp_all

/-- The search goes on from a split of the text, of which the first part has been read. -/
theorem untrusted?_eq_none_iff {contexts : List String} {before : Option Char} {cs : List Char} :
    untrusted? contexts before cs = none ↔
      ∀ pre post, cs = pre ++ post → (contextAt? contexts post).isSome = true →
        (pre.getLast?.or before).any isQuote = true := by
  induction cs generalizing before with
  | nil => simp [untrusted?, contextAt?]
  | cons c cs ih =>
      have hstep : untrusted? contexts before (c :: cs) = none ↔
          ((contextAt? contexts (c :: cs)).isSome = true → before.any isQuote = true) ∧
            untrusted? contexts (some c) cs = none := by
        simp only [untrusted?]
        by_cases hb : before.any isQuote = true
        · simp [hb]
        · cases contextAt? contexts (c :: cs) <;> simp [hb]
      rw [hstep, ih]
      constructor
      · rintro ⟨hh, ht⟩ pre post he hp
        rcases List.cons_eq_append_iff.mp he with ⟨rfl, rfl⟩ | ⟨pre, rfl, rfl⟩
        · exact hh hp
        · simpa [List.getLast?_cons] using ht pre post rfl hp
      · refine fun h => ⟨fun hp => h [] (c :: cs) rfl hp, fun pre post he hp => ?_⟩
        simpa [List.getLast?_cons] using h (c :: pre) post (by rw [he]; rfl) hp

theorem untrusted?_eq_none_iff_quotes {cs : List Char} :
    untrusted? p.untrustedContexts none cs = none ↔ p.Quotes cs := by
  have hq : ∀ o : Option Char, (o.or none).any isQuote = true ↔ o = some '"' ∨ o = some '\'' := by
    intro o
    cases o <;> simp [isQuote]
  simp only [untrusted?_eq_none_iff, isSome_contextAt?_iff, hq, Policy.Quotes]
  exact ⟨fun h before after he hc => h _ _ he ⟨after, rfl, hc⟩,
    fun h before post he ⟨body, hb, hc⟩ => h before body (hb ▸ he) hc⟩

theorem harmless_injectionIssues {s : Step} : Harmless (injectionIssues p s) ↔
    ∀ command, s.run = some command → p.Quotes command.toList := by
  cases hr : s.run with
  | none => simp [injectionIssues, hr, harmless_nil]
  | some command =>
      simp only [injectionIssues, hr, Option.some.injEq, forall_eq',
        ← untrusted?_eq_none_iff_quotes]
      cases untrusted? p.untrustedContexts none command.toList <;>
        simp [harmless_nil, harmless_singleton, Issue.severity]

/-! ## Limits and advice -/

theorem harmless_jobLimitIssues {l : Limits} {j : Job} : Harmless (jobLimitIssues l j) ↔
    j.timeoutMinutes.toInt ≤ l.jobTimeoutMinutes.toInt ∧ j.steps.length ≤ l.stepsPerJob.toNat := by
  rw [jobLimitIssues, harmless_append, harmless_ite rfl, harmless_ite rfl, Int64.lt_iff_toInt_lt,
    Int.not_lt, Nat.not_lt]

theorem harmless_workflowLimitIssues {l : Limits} {w : Workflow} :
    Harmless (workflowLimitIssues l w) ↔ w.jobs.size ≤ l.jobs.toNat := by
  rw [workflowLimitIssues, harmless_ite rfl, Nat.not_lt]

theorem harmless_pinningIssues {s : Step} : Harmless (pinningIssues p s) := by
  fun_cases pinningIssues p s <;> simp_all [harmless_nil, harmless_singleton, Issue.severity]

theorem harmless_cacheIssues {w : Workflow} : Harmless (cacheIssues p w) := by
  rw [cacheIssues]
  split <;> simp [harmless_nil, harmless_singleton, Issue.severity]

theorem exists_wholeNumber?_le_iff {text : String} {most : Int64} :
    (∃ n, wholeNumber? text = some n ∧ n ≤ most) ↔
      ∃ n, Numeral.signed? (Text.trim text.toList) = some n ∧ Int64.minValue.toInt ≤ n ∧
        n ≤ most.toInt := by
  simp only [wholeNumber?, Option.bind_eq_some_iff, Int64.le_iff_toInt_le]
  constructor
  · rintro ⟨d, ⟨n, hn, hd⟩, hm⟩
    rw [Numeral.toInt_of_int64? hd] at hm
    exact ⟨n, hn, Numeral.toInt_of_int64? hd ▸ Int64.le_toInt d, hm⟩
  · rintro ⟨n, hn, hl, hm⟩
    have hd : Numeral.int64? n = some (Int64.ofInt n) := by
      rw [Numeral.int64?, if_pos ⟨hl, Int.le_trans hm (Int64.toInt_le most)⟩]
    exact ⟨_, ⟨n, hn, hd⟩, by rwa [Numeral.toInt_of_int64? hd]⟩

theorem harmless_retentionIssues {s : Step} : Harmless (retentionIssues p s) ↔
    ∀ uses, s.uses = some uses → (∃ a ∈ p.uploadActions, a.toList <:+: uses.toList) →
      ∀ days, s.arguments.get? "retention-days" = some days → p.AdmitsRetention days := by
  have hu : usesAny p.uploadActions s = true ↔
      ∃ uses, s.uses = some uses ∧ ∃ a ∈ p.uploadActions, a.toList <:+: uses.toList := by
    simp only [usesAny, Option.any_eq_true, Text.mentionsAny_iff]
  simp only [Policy.AdmitsRetention, ← exists_wholeNumber?_le_iff]
  simp only [retentionIssues]
  split
  · rename_i hn
    refine iff_of_true harmless_nil fun uses he ha days hd => ?_
    rw [if_pos (hu.mpr ⟨uses, he, ha⟩), hd] at hn
    cases hn
  · rename_i raw hr
    by_cases hs : usesAny p.uploadActions s = true
    · rw [if_pos hs] at hr
      obtain ⟨uses, he, ha⟩ := hu.mp hs
      have hraw : (∀ uses, s.uses = some uses →
          (∃ a ∈ p.uploadActions, a.toList <:+: uses.toList) →
          ∀ days, s.arguments.get? "retention-days" = some days →
            ∃ n, wholeNumber? days = some n ∧ n ≤ p.limits.artifactRetentionDays) ↔
          ∃ n, wholeNumber? raw = some n ∧ n ≤ p.limits.artifactRetentionDays := by
        refine ⟨fun h => h uses he ha raw hr, fun h _ _ _ days hd => ?_⟩
        rwa [Option.some.inj (hd.symm.trans hr)]
      rw [hraw]
      cases wholeNumber? raw with
      | none => simp [harmless_singleton, Issue.severity]
      | some n =>
          simp only [Option.some.injEq, exists_eq_left']
          rw [harmless_ite rfl, Int64.not_lt]
    · rw [if_neg hs] at hr
      cases hr

end Rule

/-! ## The verdict -/

section Levels

variable {p : Policy} {e : Pattern.Expr}

open Rule

theorem Policy.admitsStep_iff (he : Pattern.ofText? p.inlineSecretPattern.toList = some e)
    {s : Step} : p.AdmitsStep s ↔
      Harmless (actionIssues s) ∧ Harmless (referenceIssues p s) ∧ Harmless (commandIssues p s) ∧
        Harmless (envIssues p s.env ++ inlineIssues e s) ∧ Harmless (injectionIssues p s) ∧
          Harmless (retentionIssues p s) := by
  rw [harmless_actionIssues, harmless_referenceIssues, harmless_commandIssues, harmless_append,
    harmless_envIssues, harmless_inlineIssues, harmless_injectionIssues, harmless_retentionIssues]
  constructor
  · intro h
    refine ⟨h.oneAction, h.reference, fun c hc => ?_, ⟨h.env, fun c hc => ?_⟩, fun c hc => ?_,
      h.retention⟩
    · exact ⟨(h.command c hc).harmless, (h.command c hc).noPipedDownload⟩
    · exact (h.command c hc).noSecret e he
    · exact (h.command c hc).quoted
  · rintro ⟨ho, hu, hc, ⟨hv, hi⟩, hq, hr⟩
    refine ⟨ho, hu, fun c hr => ⟨(hc c hr).1, (hc c hr).2, fun e' he' => ?_, hq c hr⟩, hv, hr⟩
    cases Option.some.inj (he.symm.trans he')
    exact hi c hr

theorem Policy.admitsJob_iff {w : Workflow} {id : String} {j : Job} : p.AdmitsJob w id j ↔
    Harmless (runnerIssues p j ++ timeoutIssues p j ++ if j.steps = [] then [.noSteps] else []) ∧
      (∀ n ∈ j.needs, n ∈ w.jobs.names ∧ n ≠ id) ∧ Harmless (permissionIssues p j.permissions) ∧
        Harmless (envIssues p j.env) ∧ Harmless (jobLimitIssues p.limits j) ∧
          ∀ s ∈ j.steps, p.AdmitsStep s := by
  rw [harmless_append, harmless_append, harmless_runnerIssues, harmless_timeoutIssues,
    harmless_ite rfl, harmless_permissionIssues, harmless_envIssues, harmless_jobLimitIssues,
    ← List.length_eq_zero_iff, ← ne_eq, ← Nat.one_le_iff_ne_zero]
  constructor
  · intro h
    exact ⟨⟨⟨h.runner, h.timeout.1, h.timeout.2.1⟩, h.stepCount.1⟩, h.needs, h.permissions, h.env,
      ⟨h.timeout.2.2, h.stepCount.2⟩, h.steps⟩
  · rintro ⟨⟨⟨hr, ht⟩, hc⟩, hn, hp, hv, hl, hs⟩
    exact ⟨hr, ⟨ht.1, ht.2, hl.1⟩, ⟨hc, hl.2⟩, hn, hp, hv, hs⟩

end Levels

namespace Validator

theorem policy_ofPolicy {p : Policy} {v : Validator} (h : ofPolicy p = .ok v) :
    v.policy = p ∧ Pattern.ofText? p.inlineSecretPattern.toList = some v.secretPattern := by
  simp only [ofPolicy] at h
  split at h
  · cases h
  · split at h
    · cases h
    · cases h
      exact ⟨rfl, ‹_›⟩

theorem forall_mem_rules_iff {v : Validator} {P : Rule → Prop} : (∀ r ∈ v.rules, P r) ↔
    (P .workflowName ∧ P .workflowTriggers ∧ P .workflowJobs) ∧
      (P .jobShape ∧ P .jobNeeds ∧ P .permissions ∧ P .hardcodedSecrets ∧ P .resourceLimits) ∧
        (P .actionReference ∧ P .runCommand ∧ P .expressionInjection ∧ P .artifactRetention) ∧
          (v.policy.detectCycles = true → P .dependencyCycles) ∧
            P .actionPinning ∧ P .dependencyCaching := by
  cases hd : v.policy.detectCycles <;> simp [rules, hd] <;> tauto

/-- Where the pattern of a policy is the one that a validator has, every rule passes exactly if the
policy admits the workflow. -/
theorem forall_passes_iff_admits {v : Validator} {w : Workflow}
    (he : Pattern.ofText? v.policy.inlineSecretPattern.toList = some v.secretPattern) :
    (∀ r ∈ v.rules, r.Passes (v.context w)) ↔ v.policy.Admits w := by
  rw [forall_mem_rules_iff, Rule.workflowName_passes_iff, Rule.workflowTriggers_passes_iff,
    Rule.workflowJobs_passes_iff, Rule.jobNeeds_passes_iff, Rule.dependencyCycles_passes_iff]
  simp only [Rule.Passes, Rule.jobShape, Rule.permissions, Rule.hardcodedSecrets,
    Rule.resourceLimits, Rule.actionReference, Rule.runCommand, Rule.expressionInjection,
    Rule.artifactRetention, Rule.actionPinning, Rule.dependencyCaching, Rule.noError_append,
    Rule.noError_onWorkflow, Rule.noError_onJobs, Rule.noError_onSteps, context]
  constructor
  · rintro ⟨⟨hn, ht, hj⟩, ⟨hs, hneeds, ⟨hwp, hp⟩, hv, hl, hwl⟩, ⟨hu, hc, hq, hr⟩, hd, -, -⟩
    refine ⟨hn, ht, ⟨hj, Rule.harmless_workflowLimitIssues.mp hwl⟩,
      Rule.harmless_permissionIssues.mp hwp, fun id j he' => ?_, fun hd' => ?_⟩
    · refine Policy.admitsJob_iff.mpr ⟨(hs id j he').1, fun n hm => hneeds id n ⟨j, he', hm⟩,
        (hp id j he').1, (hv id j he').1, (hl id j he').1, fun s hm => ?_⟩
      exact (Policy.admitsStep_iff he).mpr ⟨(hs id j he').2 s hm, hu id j he' s hm,
        hc id j he' s hm, (hv id j he').2 s hm, hq id j he' s hm, hr id j he' s hm⟩
    · exact (Workflow.cycles_needGraph_eq_nil_iff hneeds).mp (hd hd')
  · intro h
    have hneeds : w.NeedsOthers := by
      rintro id n ⟨j, hj, hn⟩
      exact (h.jobs id j hj).needs n hn
    have hjob := fun id j hj => Policy.admitsJob_iff.mp (h.jobs id j hj)
    have hstep := fun id j hj s hm => (Policy.admitsStep_iff he).mp ((h.jobs id j hj).steps s hm)
    refine ⟨⟨h.name, h.triggers, h.jobCount.1⟩, ⟨?_, hneeds, ⟨?_, ?_⟩, ?_, ?_, ?_⟩,
      ⟨?_, ?_, ?_, ?_⟩, fun hd => ?_, ?_, ?_⟩
    · exact fun id j hj => ⟨(hjob id j hj).1, fun s hm => (hstep id j hj s hm).1⟩
    · exact Rule.harmless_permissionIssues.mpr h.permissions
    · exact fun id j hj => ⟨(hjob id j hj).2.2.1, fun _ _ => Rule.harmless_nil⟩
    · exact fun id j hj => ⟨(hjob id j hj).2.2.2.1, fun s hm => (hstep id j hj s hm).2.2.2.1⟩
    · exact fun id j hj => ⟨(hjob id j hj).2.2.2.2.1, fun _ _ => Rule.harmless_nil⟩
    · exact Rule.harmless_workflowLimitIssues.mpr h.jobCount.2
    · exact fun id j hj s hm => (hstep id j hj s hm).2.1
    · exact fun id j hj s hm => (hstep id j hj s hm).2.2.1
    · exact fun id j hj s hm => (hstep id j hj s hm).2.2.2.2.1
    · exact fun id j hj s hm => (hstep id j hj s hm).2.2.2.2.2
    · exact (Workflow.cycles_needGraph_eq_nil_iff hneeds).mpr (h.acyclic hd)
    · exact fun _ _ _ _ _ => Rule.harmless_pinningIssues
    · exact Rule.harmless_cacheIssues

/-- A validator accepts exactly the workflows that its policy admits. -/
theorem validate_iff_admits {p : Policy} {v : Validator} (h : ofPolicy p = .ok v) (w : Workflow) :
    (∃ fs, v.validate w = .ok fs) ↔ p.Admits w := by
  obtain ⟨rfl, he⟩ := policy_ofPolicy h
  rw [validate_eq_ok_iff, forall_passes_iff, forall_passes_iff_admits he]

/-- A workflow with an action, and a command that quotes what anyone may set. -/
def greeting : Workflow where
  name := "greeting"
  triggers := .ofList [("push", "")]
  permissions := .ofList [("contents", "read")]
  jobs := .ofList [("greet", { Job.blank with
    runsOn := "ubuntu-latest"
    steps := [{ Step.blank with uses := some "actions/checkout@v4" },
      { Step.blank with run := some "echo \"$\x7b\x7b github.event.title \x7d\x7d\"" }] })]
  env := ∅

theorem greeting_admitted : Policy.preset.Admits greeting ∧
    ∃ v, ofPolicy .preset = .ok v ∧ ∃ fs, v.validate greeting = .ok fs := by
  have hd : ((ofPolicy .preset).toOption.any fun v => (v.validate greeting).isOk) = true := by
    decide +kernel
  cases hv : ofPolicy .preset with
  | error e => simp [hv, Except.toOption] at hd
  | ok v =>
      have hw : ∃ fs, v.validate greeting = .ok fs := by
        cases hr : v.validate greeting with
        | error e => simp [hv, hr, Except.toOption, Except.isOk, Except.toBool] at hd
        | ok fs => exact ⟨fs, rfl⟩
      exact ⟨(validate_iff_admits hv greeting).mp hw, v, rfl, hw⟩

end Validator

end WorkflowLint
