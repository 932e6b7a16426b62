import WorkflowLint.Proofs.Admission

/-!
# More lenient policies

A policy relaxes another one if it knows more runners, permissions and ways to refer to a secret,
forbids less, and has limits that are no lower. What a policy admits is then admitted by every
policy that relaxes it, condition by condition, so that a relaxed policy accepts no less. How a list
of a policy is ordered, and what is repeated in it, decides nothing.
-/
namespace WorkflowLint

/-- No limit is lower than the one it takes the place of. -/
structure Limits.Relaxes (m l : Limits) : Prop where
  timeoutMinutes : l.timeoutMinutes ≤ m.timeoutMinutes
  jobTimeoutMinutes : l.jobTimeoutMinutes ≤ m.jobTimeoutMinutes
  stepsPerJob : l.stepsPerJob ≤ m.stepsPerJob
  jobs : l.jobs ≤ m.jobs
  artifactRetentionDays : l.artifactRetentionDays ≤ m.artifactRetentionDays

/-- `q` asks no more than `p`. Versions that may change and actions that cache are left out, for
they are only advised against. -/
structure Policy.Relaxes (q p : Policy) : Prop where
  runnerLabels : p.runnerLabels ⊆ q.runnerLabels
  permissionScopes : p.permissionScopes ⊆ q.permissionScopes
  permissionLevels : p.permissionLevels ⊆ q.permissionLevels
  dangerousCommands : q.dangerousCommands ⊆ p.dangerousCommands
  downloadMarkers : q.downloadMarkers ⊆ p.downloadMarkers
  shellMarkers : q.shellMarkers ⊆ p.shellMarkers
  secretMarkers : q.secretMarkers ⊆ p.secretMarkers
  secretReferenceMarkers : p.secretReferenceMarkers ⊆ q.secretReferenceMarkers
  inlineSecretPattern : q.inlineSecretPattern = p.inlineSecretPattern
  untrustedContexts : q.untrustedContexts ⊆ p.untrustedContexts
  uploadActions : q.uploadActions ⊆ p.uploadActions
  localActionStart : q.localActionStart = p.localActionStart
  containerActionStart : q.containerActionStart = p.containerActionStart
  limits : q.limits.Relaxes p.limits
  detectCycles : q.detectCycles = true → p.detectCycles = true

theorem Limits.Relaxes.refl (l : Limits) : l.Relaxes l := by
  constructor
  · exact Int64.le_refl l.timeoutMinutes
  · exact Int64.le_refl l.jobTimeoutMinutes
  · exact UInt64.le_refl l.stepsPerJob
  · exact UInt64.le_refl l.jobs
  · exact Int64.le_refl l.artifactRetentionDays

theorem Policy.Relaxes.refl (p : Policy) : p.Relaxes p := by
  constructor
  case limits => exact .refl p.limits
  case detectCycles => exact id
  case inlineSecretPattern | localActionStart | containerActionStart => rfl
  all_goals exact List.Subset.refl _

theorem exists_mem_mono {α : Type} {P : α → Prop} {as bs : List α} (h : as ⊆ bs) :
    (∃ a ∈ as, P a) → ∃ b ∈ bs, P b :=
  fun ⟨a, ha, hp⟩ => ⟨a, h ha, hp⟩

namespace Policy

variable {p q : Policy} (hr : q.Relaxes p)
include hr

/-! ## Steps -/

theorem AdmitsReference.relax {uses : String} (h : p.AdmitsReference uses) :
    q.AdmitsReference uses := by
  refine ⟨h.noTraversal, ?_⟩
  rw [hr.containerActionStart, hr.localActionStart]
  exact h.known

theorem Quotes.relax {command : List Char} (h : p.Quotes command) : q.Quotes command :=
  fun before after he hc => h before after he (exists_mem_mono hr.untrustedContexts hc)

theorem AdmitsCommand.relax {command : String} (h : p.AdmitsCommand command) :
    q.AdmitsCommand command where
  harmless d hd := h.harmless d (hr.dangerousCommands hd)
  noPipedDownload := fun ⟨hp, hd, hs⟩ => h.noPipedDownload
    ⟨hp, exists_mem_mono hr.downloadMarkers hd, exists_mem_mono hr.shellMarkers hs⟩
  noSecret e he := h.noSecret e (hr.inlineSecretPattern ▸ he)
  quoted := h.quoted.relax hr

theorem AdmitsEnv.relax {env : Table String} (h : p.AdmitsEnv env) : q.AdmitsEnv env := by
  intro name value hg hv hs
  have hp := h name value hg hv (exists_mem_mono hr.secretMarkers hs)
  exact exists_mem_mono hr.secretReferenceMarkers hp

theorem AdmitsPermissions.relax {t : Table String} (h : p.AdmitsPermissions t) :
    q.AdmitsPermissions t := by
  intro scope level hg
  obtain ⟨hs, hl⟩ := h scope level hg
  exact ⟨hr.permissionScopes hs, hr.permissionLevels hl⟩

theorem AdmitsRetention.relax {days : String} (h : p.AdmitsRetention days) :
    q.AdmitsRetention days := by
  obtain ⟨n, hn, hl, hm⟩ := h
  have hd := Int64.le_iff_toInt_le.mp hr.limits.artifactRetentionDays
  exact ⟨n, hn, hl, Int.le_trans hm hd⟩

theorem AdmitsStep.relax {s : Step} (h : p.AdmitsStep s) : q.AdmitsStep s where
  oneAction := h.oneAction
  reference uses hu hn := (h.reference uses hu hn).relax hr
  command c hc := (h.command c hc).relax hr
  env := h.env.relax hr
  retention uses hu ha days hd :=
    (h.retention uses hu (exists_mem_mono hr.uploadActions ha) days hd).relax hr

/-! ## Jobs and workflows -/

theorem AdmitsJob.relax {w : Workflow} {id : String} {j : Job} (h : p.AdmitsJob w id j) :
    q.AdmitsJob w id j where
  runner := ⟨h.runner.1, exists_mem_mono hr.runnerLabels h.runner.2⟩
  timeout := by
    have ht := Int64.le_iff_toInt_le.mp hr.limits.timeoutMinutes
    have hj := Int64.le_iff_toInt_le.mp hr.limits.jobTimeoutMinutes
    exact ⟨h.timeout.1, Int.le_trans h.timeout.2.1 ht, Int.le_trans h.timeout.2.2 hj⟩
  stepCount := by
    have hs := UInt64.le_iff_toNat_le.mp hr.limits.stepsPerJob
    exact ⟨h.stepCount.1, Nat.le_trans h.stepCount.2 hs⟩
  needs := h.needs
  permissions := h.permissions.relax hr
  env := h.env.relax hr
  steps s hs := (h.steps s hs).relax hr

theorem Admits.relax {w : Workflow} (h : p.Admits w) : q.Admits w where
  name := h.name
  triggers := h.triggers
  jobCount := by
    have hj := UInt64.le_iff_toNat_le.mp hr.limits.jobs
    exact ⟨h.jobCount.1, Nat.le_trans h.jobCount.2 hj⟩
  permissions := h.permissions.relax hr
  jobs id j hj := (h.jobs id j hj).relax hr
  acyclic hd := h.acyclic (hr.detectCycles hd)

end Policy

/-! ## The verdict -/

namespace Validator

variable {p q : Policy} {v u : Validator}

/-- A workflow that a policy accepts is accepted by every policy that relaxes it. Policies that
relax each other, for their lists have the same members, accept the same workflows. -/
theorem accepts_of_relaxes (hp : ofPolicy p = .ok v) (hq : ofPolicy q = .ok u)
    (hr : q.Relaxes p) (w : Workflow) :
    ((∃ fs, v.validate w = .ok fs) → ∃ fs, u.validate w = .ok fs) ∧
      (p.Relaxes q → ((∃ fs, v.validate w = .ok fs) ↔ ∃ fs, u.validate w = .ok fs)) := by
  obtain ⟨rfl, hv⟩ := policy_ofPolicy hp
  obtain ⟨rfl, hu⟩ := policy_ofPolicy hq
  simp only [validate_eq_ok_iff, forall_passes_iff, forall_passes_iff_admits hv,
    forall_passes_iff_admits hu]
  exact ⟨fun h => h.relax hr, fun hs => ⟨fun h => h.relax hr, fun h => h.relax hs⟩⟩

theorem ofPolicy_of_pattern {e : Pattern.Expr}
    (he : Pattern.ofText? p.inlineSecretPattern.toList = some e) (hl : p.permissionLevels ≠ []) :
    ofPolicy p = .ok ⟨p, e⟩ := by
  rw [ofPolicy, he]
  exact if_neg hl

/-- The preset with little room for jobs and steps. -/
def strict : Policy :=
  { Policy.preset with limits := { Limits.preset with jobs := 1, stepsPerJob := 2 } }

/-- The preset with more runners and no dangerous commands. -/
def lenient : Policy :=
  { Policy.preset with
    runnerLabels := "gpu-" :: Policy.preset.runnerLabels
    dangerousCommands := [] }

/-- The strict policy with its runners in another order and its scopes written twice. -/
def shuffled : Policy :=
  { strict with
    runnerLabels := Policy.preset.runnerLabels.reverse
    permissionScopes := Policy.preset.permissionScopes ++ Policy.preset.permissionScopes }

def presetPattern : Pattern.Expr :=
  (Pattern.ofText? Policy.presetSecretPattern.toList).getD .empty

theorem greeting_accepted_leniently :
    (lenient.Relaxes strict ∧ shuffled.Relaxes strict ∧ strict.Relaxes shuffled) ∧
      (ofPolicy strict = .ok ⟨strict, presetPattern⟩ ∧
        ofPolicy lenient = .ok ⟨lenient, presetPattern⟩ ∧
        ofPolicy shuffled = .ok ⟨shuffled, presetPattern⟩) ∧
      (∃ fs, (Validator.mk lenient presetPattern).validate greeting = .ok fs) ∧
        ∃ fs, (Validator.mk shuffled presetPattern).validate greeting = .ok fs := by
  have hl : lenient.Relaxes strict :=
    { Policy.Relaxes.refl strict with
      runnerLabels := List.subset_cons_self "gpu-" strict.runnerLabels
      dangerousCommands := List.nil_subset strict.dangerousCommands
      limits := { Limits.Relaxes.refl strict.limits with
        jobs := by decide
        stepsPerJob := by decide } }
  have hs : shuffled.Relaxes strict :=
    { Policy.Relaxes.refl strict with
      runnerLabels := fun _ h => List.mem_reverse.mpr h
      permissionScopes := List.subset_append_left strict.permissionScopes _ }
  have hb : strict.Relaxes shuffled :=
    { Policy.Relaxes.refl strict with
      runnerLabels := fun _ h => List.mem_reverse.mp h
      permissionScopes := fun _ h => (List.mem_append.mp h).elim id id }
  have he : Pattern.ofText? Policy.presetSecretPattern.toList = some presetPattern := by
    decide +kernel
  have hp : ofPolicy strict = .ok ⟨strict, presetPattern⟩ := ofPolicy_of_pattern he (by decide)
  have hq : ofPolicy lenient = .ok ⟨lenient, presetPattern⟩ := ofPolicy_of_pattern he (by decide)
  have ht : ofPolicy shuffled = .ok ⟨shuffled, presetPattern⟩ :=
    ofPolicy_of_pattern he (by decide)
  have hg : ∃ fs, (Validator.mk strict presetPattern).validate greeting = .ok fs :=
    validate_eq_ok_iff.mpr (by decide +kernel)
  exact ⟨⟨hl, hs, hb⟩, ⟨hp, hq, ht⟩, (accepts_of_relaxes hp hq hl greeting).1 hg,
    ((accepts_of_relaxes hp ht hs greeting).2 hb).mp hg⟩

end Validator

end WorkflowLint
