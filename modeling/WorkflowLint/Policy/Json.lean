import WorkflowLint.Json.Codec
import WorkflowLint.Json.Reader
import WorkflowLint.Json.Writer
import WorkflowLint.Policy

/-!
Policies as JSON. A document overrides the fields of the preset that it names.
-/
namespace WorkflowLint

def Limits.fieldCodecs : List (Field Limits) := [
  .of "max_timeout_minutes" .defaulted .int64 (·.timeoutMinutes)
    fun v l => { l with timeoutMinutes := v },
  .of "max_job_timeout_minutes" .defaulted .int64 (·.jobTimeoutMinutes)
    fun v l => { l with jobTimeoutMinutes := v },
  .of "max_steps_per_job" .defaulted .uint64 (·.stepsPerJob)
    fun v l => { l with stepsPerJob := v },
  .of "max_jobs" .defaulted .uint64 (·.jobs) fun v l => { l with jobs := v },
  .of "max_artifact_retention_days" .defaulted .int64 (·.artifactRetentionDays)
    fun v l => { l with artifactRetentionDays := v }]

def Codec.limits : Codec Limits :=
  .record Limits.fieldCodecs .preset

namespace Policy

/-- A field that holds a list of strings. -/
def listField (name : String) (get : Policy → List String) (put : List String → Policy → Policy) :
    Field Policy :=
  .of name .defaulted (.list .string) get put

def fieldCodecs : List (Field Policy) := [
  listField "runner_labels" (·.runnerLabels) fun v p => { p with runnerLabels := v },
  listField "permission_scopes" (·.permissionScopes) fun v p => { p with permissionScopes := v },
  listField "permission_levels" (·.permissionLevels) fun v p => { p with permissionLevels := v },
  listField "dangerous_commands" (·.dangerousCommands)
    fun v p => { p with dangerousCommands := v },
  listField "download_markers" (·.downloadMarkers) fun v p => { p with downloadMarkers := v },
  listField "shell_markers" (·.shellMarkers) fun v p => { p with shellMarkers := v },
  listField "secret_markers" (·.secretMarkers) fun v p => { p with secretMarkers := v },
  listField "secret_reference_markers" (·.secretReferenceMarkers)
    fun v p => { p with secretReferenceMarkers := v },
  .of "inline_secret_pattern" .defaulted .string (·.inlineSecretPattern)
    fun v p => { p with inlineSecretPattern := v },
  listField "untrusted_contexts" (·.untrustedContexts)
    fun v p => { p with untrustedContexts := v },
  listField "mutable_refs" (·.mutableRefs) fun v p => { p with mutableRefs := v },
  listField "cache_actions" (·.cacheActions) fun v p => { p with cacheActions := v },
  listField "artifact_upload_actions" (·.uploadActions) fun v p => { p with uploadActions := v },
  .of "local_action_prefix" .defaulted .string (·.localActionStart)
    fun v p => { p with localActionStart := v },
  .of "container_action_prefix" .defaulted .string (·.containerActionStart)
    fun v p => { p with containerActionStart := v },
  .of "limits" .defaulted .limits (·.limits) fun v p => { p with limits := v },
  .of "detect_dependency_cycles" .defaulted .bool (·.detectCycles)
    fun v p => { p with detectCycles := v }]

def codec : Codec Policy :=
  .record fieldCodecs .preset

def toJson (p : Policy) : Json :=
  codec.write p

/-- The policy that a document describes, if it is JSON and its fields have the right types. -/
def ofText? (text : List Char) : Option Policy :=
  (Json.ofText? text).bind codec.read?

end Policy

end WorkflowLint
