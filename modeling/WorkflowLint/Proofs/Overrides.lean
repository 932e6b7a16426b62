import WorkflowLint.CommandLine.Run
import WorkflowLint.Proofs.Encoding
import WorkflowLint.Proofs.Json.Records

/-!
# Policy documents

A policy document overrides exactly what it names. It may name any of the fields, and any of the
limits, in any order; what it does not name keeps the value of the preset.
-/
namespace WorkflowLint

open WorkflowLint.Field

/-! ## Limits -/

namespace Limits

inductive Key
  | timeoutMinutes
  | jobTimeoutMinutes
  | stepsPerJob
  | jobs
  | artifactRetentionDays
  deriving DecidableEq

def Key.member (l : Limits) : Key → String × Json
  | timeoutMinutes => ("max_timeout_minutes", .ofInt l.timeoutMinutes.toInt)
  | jobTimeoutMinutes => ("max_job_timeout_minutes", .ofInt l.jobTimeoutMinutes.toInt)
  | stepsPerJob => ("max_steps_per_job", .ofNat l.stepsPerJob.toNat)
  | jobs => ("max_jobs", .ofNat l.jobs.toNat)
  | artifactRetentionDays => ("max_artifact_retention_days", .ofInt l.artifactRetentionDays.toInt)

def document (keys : List Key) (l : Limits) : Json :=
  .object (keys.map (Key.member l))

/-- The limits that are those of `l` under the given keys, and those of `m` elsewhere. -/
def override (keys : List Key) (l m : Limits) : Limits where
  timeoutMinutes := if .timeoutMinutes ∈ keys then l.timeoutMinutes else m.timeoutMinutes
  jobTimeoutMinutes :=
    if .jobTimeoutMinutes ∈ keys then l.jobTimeoutMinutes else m.jobTimeoutMinutes
  stepsPerJob := if .stepsPerJob ∈ keys then l.stepsPerJob else m.stepsPerJob
  jobs := if .jobs ∈ keys then l.jobs else m.jobs
  artifactRetentionDays :=
    if .artifactRetentionDays ∈ keys then l.artifactRetentionDays else m.artifactRetentionDays

variable {l : Limits} {keys : List Key}

theorem allDefaulted_fieldCodecs : AllDefaulted fieldCodecs where
  nodup := by decide
  defaulted := by simp [fieldCodecs, Field.of]

theorem Key.reads_member (l : Limits) (k : Key) :
    Reads fieldCodecs (k.member l) (override [k] l) := by
  -- The number is where the field stands among the codecs of all fields.
  cases k with
  | timeoutMinutes => exact reads_of 0 rfl (Codec.lawful_int64 l.timeoutMinutes) fun _ => rfl
  | jobTimeoutMinutes => exact reads_of 1 rfl (Codec.lawful_int64 l.jobTimeoutMinutes) fun _ => rfl
  | stepsPerJob => exact reads_of 2 rfl (Codec.lawful_uint64 l.stepsPerJob) fun _ => rfl
  | jobs => exact reads_of 3 rfl (Codec.lawful_uint64 l.jobs) fun _ => rfl
  | artifactRetentionDays =>
      exact reads_of 4 rfl (Codec.lawful_int64 l.artifactRetentionDays) fun _ => rfl

theorem Key.written_member (l : Limits) (k : Key) : (k.member l).2.Written := by
  cases k with
  | stepsPerJob | jobs => exact Json.written_ofNat _
  | _ => exact Json.written_ofInt _

theorem Key.name_injective (l : Limits) : Function.Injective fun k => (Key.member l k).1 := by
  intro k k'
  cases k <;> cases k' <;> simp [member]

theorem setsEach_override (l : Limits) : SetsEach fun keys => override keys l where
  nil m := by simp [override]
  cons k keys m := by cases k <;> simp [override]

/-- An object of limits is read as the preset with those limits put in their place. -/
theorem read?_document (h : keys.Nodup) :
    Codec.limits.read? (document keys l) = some (override keys l .preset) :=
  read?_object allDefaulted_fieldCodecs (setsEach_override l) (fun k _ => Key.reads_member l k)
    (Key.name_injective l) h

end Limits

/-! ## Policies -/

namespace Policy

inductive Key
  | runnerLabels
  | permissionScopes
  | permissionLevels
  | dangerousCommands
  | downloadMarkers
  | shellMarkers
  | secretMarkers
  | secretReferenceMarkers
  | inlineSecretPattern
  | untrustedContexts
  | mutableRefs
  | cacheActions
  | uploadActions
  | localActionStart
  | containerActionStart
  | limits
  | detectCycles
  deriving DecidableEq

/-- Which fields a document names and which limits among them, in the order in which it does. -/
structure Naming where
  keys : List Key
  limitKeys : List Limits.Key
  nodup_keys : keys.Nodup
  nodup_limitKeys : limitKeys.Nodup

/-- A field as a document writes it, with some of the limits in theirs. -/
def Key.member (p : Policy) (limitKeys : List Limits.Key) : Key → String × Json
  | runnerLabels => ("runner_labels", .ofStrings p.runnerLabels)
  | permissionScopes => ("permission_scopes", .ofStrings p.permissionScopes)
  | permissionLevels => ("permission_levels", .ofStrings p.permissionLevels)
  | dangerousCommands => ("dangerous_commands", .ofStrings p.dangerousCommands)
  | downloadMarkers => ("download_markers", .ofStrings p.downloadMarkers)
  | shellMarkers => ("shell_markers", .ofStrings p.shellMarkers)
  | secretMarkers => ("secret_markers", .ofStrings p.secretMarkers)
  | secretReferenceMarkers => ("secret_reference_markers", .ofStrings p.secretReferenceMarkers)
  | inlineSecretPattern => ("inline_secret_pattern", .string p.inlineSecretPattern)
  | untrustedContexts => ("untrusted_contexts", .ofStrings p.untrustedContexts)
  | mutableRefs => ("mutable_refs", .ofStrings p.mutableRefs)
  | cacheActions => ("cache_actions", .ofStrings p.cacheActions)
  | uploadActions => ("artifact_upload_actions", .ofStrings p.uploadActions)
  | localActionStart => ("local_action_prefix", .string p.localActionStart)
  | containerActionStart => ("container_action_prefix", .string p.containerActionStart)
  | limits => ("limits", p.limits.document limitKeys)
  | detectCycles => ("detect_dependency_cycles", .bool p.detectCycles)

/-- The policy that is `p` under the given keys, and `q` elsewhere. -/
def override (keys : List Key) (p q : Policy) : Policy where
  runnerLabels := if .runnerLabels ∈ keys then p.runnerLabels else q.runnerLabels
  permissionScopes := if .permissionScopes ∈ keys then p.permissionScopes else q.permissionScopes
  permissionLevels := if .permissionLevels ∈ keys then p.permissionLevels else q.permissionLevels
  dangerousCommands :=
    if .dangerousCommands ∈ keys then p.dangerousCommands else q.dangerousCommands
  downloadMarkers := if .downloadMarkers ∈ keys then p.downloadMarkers else q.downloadMarkers
  shellMarkers := if .shellMarkers ∈ keys then p.shellMarkers else q.shellMarkers
  secretMarkers := if .secretMarkers ∈ keys then p.secretMarkers else q.secretMarkers
  secretReferenceMarkers :=
    if .secretReferenceMarkers ∈ keys then p.secretReferenceMarkers else q.secretReferenceMarkers
  inlineSecretPattern :=
    if .inlineSecretPattern ∈ keys then p.inlineSecretPattern else q.inlineSecretPattern
  untrustedContexts :=
    if .untrustedContexts ∈ keys then p.untrustedContexts else q.untrustedContexts
  mutableRefs := if .mutableRefs ∈ keys then p.mutableRefs else q.mutableRefs
  cacheActions := if .cacheActions ∈ keys then p.cacheActions else q.cacheActions
  uploadActions := if .uploadActions ∈ keys then p.uploadActions else q.uploadActions
  localActionStart := if .localActionStart ∈ keys then p.localActionStart else q.localActionStart
  containerActionStart :=
    if .containerActionStart ∈ keys then p.containerActionStart else q.containerActionStart
  limits := if .limits ∈ keys then p.limits else q.limits
  detectCycles := if .detectCycles ∈ keys then p.detectCycles else q.detectCycles

namespace Naming

def document (n : Naming) (p : Policy) : Json :=
  .object (n.keys.map (Key.member p n.limitKeys))

/-- The preset, with what is named taken from another policy. -/
def overridden (n : Naming) (p : Policy) : Policy :=
  override n.keys { p with limits := p.limits.override n.limitKeys .preset } .preset

/-- Everything, in the order in which a policy is written. -/
def all : Naming where
  keys := [.runnerLabels, .permissionScopes, .permissionLevels, .dangerousCommands,
    .downloadMarkers, .shellMarkers, .secretMarkers, .secretReferenceMarkers, .inlineSecretPattern,
    .untrustedContexts, .mutableRefs, .cacheActions, .uploadActions, .localActionStart,
    .containerActionStart, .limits, .detectCycles]
  limitKeys := [.timeoutMinutes, .jobTimeoutMinutes, .stepsPerJob, .jobs, .artifactRetentionDays]
  nodup_keys := by decide
  nodup_limitKeys := by decide

theorem document_all (p : Policy) : all.document p = p.toJson := rfl

theorem overridden_all (p : Policy) : all.overridden p = p := by
  simp [overridden, override, Limits.override, all]

end Naming

theorem allDefaulted_fieldCodecs : AllDefaulted fieldCodecs where
  nodup := by decide
  defaulted := by simp [fieldCodecs, listField, Field.of]

variable {p : Policy} {limitKeys : List Limits.Key}

theorem reads_strings {fs : List (Field Policy)} {name : String} {get : Policy → List String}
    {put : List String → Policy → Policy} {ss : List String} {take : Policy → Policy} (i : Nat)
    (hf : fs[i]? = some (listField name get put)) (ht : ∀ q, put ss q = take q) :
    Reads fs (name, .ofStrings ss) take :=
  reads_of i hf (Codec.lawful_list Codec.lawful_string ss) ht

/-- Reading a field sets it and no other one. -/
theorem Key.reads_member (h : limitKeys.Nodup) (k : Key) :
    Reads fieldCodecs (k.member p limitKeys)
      (override [k] { p with limits := p.limits.override limitKeys .preset }) := by
  cases k with
  | runnerLabels => exact reads_strings 0 rfl fun _ => rfl
  | permissionScopes => exact reads_strings 1 rfl fun _ => rfl
  | permissionLevels => exact reads_strings 2 rfl fun _ => rfl
  | dangerousCommands => exact reads_strings 3 rfl fun _ => rfl
  | downloadMarkers => exact reads_strings 4 rfl fun _ => rfl
  | shellMarkers => exact reads_strings 5 rfl fun _ => rfl
  | secretMarkers => exact reads_strings 6 rfl fun _ => rfl
  | secretReferenceMarkers => exact reads_strings 7 rfl fun _ => rfl
  | inlineSecretPattern =>
      exact reads_of 8 rfl (Codec.lawful_string p.inlineSecretPattern) fun _ => rfl
  | untrustedContexts => exact reads_strings 9 rfl fun _ => rfl
  | mutableRefs => exact reads_strings 10 rfl fun _ => rfl
  | cacheActions => exact reads_strings 11 rfl fun _ => rfl
  | uploadActions => exact reads_strings 12 rfl fun _ => rfl
  | localActionStart => exact reads_of 13 rfl (Codec.lawful_string p.localActionStart) fun _ => rfl
  | containerActionStart =>
      exact reads_of 14 rfl (Codec.lawful_string p.containerActionStart) fun _ => rfl
  | limits => exact reads_of 15 rfl (Limits.read?_document h) fun _ => rfl
  | detectCycles => exact reads_of 16 rfl (Codec.lawful_bool p.detectCycles) fun _ => rfl

theorem Key.written_member (k : Key) : (k.member p limitKeys).2.Written := by
  cases k with
  | inlineSecretPattern | localActionStart | containerActionStart | detectCycles => exact trivial
  | limits => exact Json.written_object (Limits.Key.written_member p.limits) limitKeys
  | _ => exact Json.written_ofStrings _

theorem Key.name_injective (p : Policy) (limitKeys : List Limits.Key) :
    Function.Injective fun k => (Key.member p limitKeys k).1 := by
  intro k k'
  cases k <;> cases k' <;> simp [member]

theorem setsEach_override (p : Policy) : SetsEach fun keys => override keys p where
  nil q := by simp [override]
  cons k keys q := by cases k <;> simp [override]

/-- A document is read as the preset with what it names put in its place. -/
theorem read?_document (n : Naming) (p : Policy) :
    codec.read? (n.document p) = some (n.overridden p) :=
  read?_object allDefaulted_fieldCodecs (setsEach_override _)
    (fun k _ => k.reads_member n.nodup_limitKeys) (Key.name_injective p n.limitKeys) n.nodup_keys

theorem written_document (n : Naming) (p : Policy) : (n.document p).Written :=
  Json.written_object Key.written_member n.keys

/-- The text of a document is read in any plain layout, and with white space after it. -/
theorem ofText?_render {l : Json.Layout} (hl : l.IsPlain) (n : Naming) (p : Policy)
    {after : List Char} (ha : Json.IsSpaces after) :
    ofText? ((n.document p).render l 0 ++ after) = some (n.overridden p) := by
  rw [ofText?, Json.ofText?_render hl (written_document n p) ha, Option.bind_some, read?_document]

theorem ofText?_written (n : Naming) (p : Policy) :
    ofText? (n.document p).compact.toList = some (n.overridden p) ∧
      ofText? (n.document p).pretty.toList = some (n.overridden p) := by
  have hc := ofText?_render Json.isPlain_compact n p Json.isSpaces_nil
  have hp := ofText?_render Json.isPlain_pretty n p Json.isSpaces_nil
  rw [List.append_nil] at hc hp
  rw [Json.compact, Json.pretty, String.toList_ofList, String.toList_ofList]
  exact ⟨hc, hp⟩

end Policy

/-! ## The policy that is printed -/

namespace CommandLine

variable {s : FileSystem} {r : CheckRequest} {path printed : String}

theorem ofText?_printed {code : Nat} (h : Command.policy.run s = .ok (code, printed)) :
    Policy.ofText? printed.toList = some .preset := by
  cases h
  have hp : (unlines [Policy.preset.toJson.pretty]).toList =
      (Policy.Naming.all.document .preset).render .pretty 0 ++ ['\n'] := by
    simp [unlines, Json.pretty, Policy.Naming.document_all]
  rw [hp, Policy.ofText?_render Json.isPlain_pretty _ _ (by simp [Json.IsSpaces, Json.isSpace]),
    Policy.Naming.overridden_all]

/-- A file with the preset in it gives the same validator as no file. -/
theorem CheckRequest.validator_preset
    (h : s.read path = .ok (Text.Utf8.encode printed.toList))
    (hp : Policy.ofText? printed.toList = some .preset) :
    CheckRequest.validator { r with policy := some path } s =
      CheckRequest.validator { r with policy := none } s := by
  have hl : Validator.load (some printed.toList) = Validator.load none := by
    simp only [Validator.load, hp]
  have hs : CheckRequest.validator { r with policy := some path } s =
      (Validator.load (some printed.toList)).mapError .failure := by
    rw [validator]
    simp only [FileSystem.readText_of_read h]
    rfl
  rw [hs, hl]
  rfl

end CommandLine

namespace Policy

open CommandLine in
/-- A document that names some fields of a policy, and some of its limits, is read as the preset
with just these taken from that policy, in whatever order and layout they are written. A document
that names everything is read as the policy itself; a check with the policy that the command line
prints comes to the same as a check without one. -/
theorem ofText?_document (n : Naming) (p : Policy) :
    (ofText? (n.document p).compact.toList = some (n.overridden p) ∧
      ofText? (n.document p).pretty.toList = some (n.overridden p)) ∧
    (ofText? p.toJson.compact.toList = some p ∧ ofText? p.toJson.pretty.toList = some p) ∧
    ∀ (s : FileSystem) (r : CheckRequest) (path printed : String),
      Command.policy.run s = .ok (0, printed) →
      s.read path = .ok (Text.Utf8.encode printed.toList) →
        (Command.check { r with policy := some path }).run s =
          (Command.check { r with policy := none }).run s := by
  refine ⟨ofText?_written n p, ?_, ?_⟩
  · have h := ofText?_written .all p
    rwa [Naming.document_all, Naming.overridden_all] at h
  · intro s r path printed hr hf
    have hv := CheckRequest.validator_preset (r := r) hf (ofText?_printed hr)
    simp only [Command.run, CheckRequest.outcomes, hv]
    rfl

/-- A folder with nothing but the policy that the command line prints. -/
def printedFolder : FileSystem :=
  .around (.folder none [("policy.json", .file (.ok (Text.Utf8.encode
    (CommandLine.unlines [preset.toJson.pretty]).toList)))])

/-- The preset with one runner and at most five jobs. -/
def fiveJobs : Policy :=
  { preset with runnerLabels := ["linux-arm"], limits := { Limits.preset with jobs := 5 } }

/-- Where that policy is not the preset, the last of its fields first. -/
def limitsAndRunners : Naming where
  keys := [.limits, .runnerLabels]
  limitKeys := [.jobs]
  nodup_keys := by decide
  nodup_limitKeys := by decide

open CommandLine in
theorem ofText?_limits_and_runners :
    ofText? "\x7b\"limits\":\x7b\"max_jobs\":5\x7d,\"runner_labels\":[\"linux-arm\"]\x7d".toList =
      some fiveJobs ∧
    printedFolder.read "policy.json" =
      .ok (Text.Utf8.encode (unlines [preset.toJson.pretty]).toList) ∧
    (Command.check ⟨["."], some "policy.json", 2, true, "*.json", .text⟩).run printedFolder =
      (Command.check ⟨["."], none, 2, true, "*.json", .text⟩).run printedFolder := by
  have hc : Path.components "policy.json" = [.name "policy.json"] := by decide +kernel
  have hd : Path.demandsFolder "policy.json" = false := by decide +kernel
  have hf : printedFolder.read "policy.json" =
      .ok (Text.Utf8.encode (unlines [preset.toJson.pretty]).toList) := by
    simp [FileSystem.read, FileSystem.lookup, hc, hd, printedFolder, FileSystem.around,
      FileSystem.start, FileTree.follow, FileTree.enter, FileTree.child?, FileTree.content,
      Except.bind]
  have ht : (limitsAndRunners.document fiveJobs).compact =
      "\x7b\"limits\":\x7b\"max_jobs\":5\x7d,\"runner_labels\":[\"linux-arm\"]\x7d" := by
    decide +kernel
  have h := ofText?_document limitsAndRunners fiveJobs
  refine ⟨?_, hf, ?_⟩
  · rw [← ht, h.1.1]
    rfl
  · exact h.2.2 printedFolder ⟨["."], none, 2, true, "*.json", .text⟩ "policy.json" _ rfl hf

end Policy

end WorkflowLint
