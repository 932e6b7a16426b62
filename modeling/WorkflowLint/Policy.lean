import WorkflowLint.Text.Search

/-!
Policies: what a workflow may say. The preset is the one for GitHub Actions.
-/
namespace WorkflowLint

/-- The most that a workflow may have of something. -/
structure Limits where
  /-- Of the minutes that any timeout may give. -/
  timeoutMinutes : Int64
  jobTimeoutMinutes : Int64
  stepsPerJob : UInt64
  jobs : UInt64
  artifactRetentionDays : Int64
  deriving DecidableEq

structure Policy where
  /-- One of these stands in the name of an accepted runner. -/
  runnerLabels : List String
  permissionScopes : List String
  permissionLevels : List String
  /-- None of these may stand in a command. -/
  dangerousCommands : List String
  /-- A command must not pipe one of these into one of the shells. -/
  downloadMarkers : List String
  shellMarkers : List String
  /-- One of these stands in the name of a variable that holds a secret, in lower case. -/
  secretMarkers : List String
  /-- One of these stands in a value that refers to a secret. -/
  secretReferenceMarkers : List String
  inlineSecretPattern : String
  /-- Contexts of expressions that anyone may set. -/
  untrustedContexts : List String
  /-- The versions of an action that may change. -/
  mutableRefs : List String
  cacheActions : List String
  uploadActions : List String
  /-- How the reference to an action of the same repository begins. -/
  localActionStart : String
  /-- How the reference to a container image begins. -/
  containerActionStart : String
  limits : Limits
  /-- Whether jobs that need each other in a circle are reported. -/
  detectCycles : Bool
  deriving DecidableEq

def Limits.preset : Limits where
  timeoutMinutes := 600
  jobTimeoutMinutes := 360
  stepsPerJob := 50
  jobs := 20
  artifactRetentionDays := 90

namespace Policy

/-- The names of credentials, an equals sign, and a token of ten characters or more. -/
def presetSecretPattern : String :=
  "(password|token|key|secret)=['\"]?[a-zA-Z0-9+/=]\x7b10,\x7d['\"]?"

def preset : Policy where
  runnerLabels := ["ubuntu-", "windows-", "macos-", "self-hosted"]
  permissionScopes := ["actions", "checks", "contents", "deployments", "issues", "packages",
    "pages", "pull-requests", "repository-projects", "security-events", "statuses"]
  permissionLevels := ["read", "write", "none"]
  dangerousCommands := ["rm -rf /", "sudo rm -rf", "del /s /q", "format c:", "mkfs",
    "dd if=/dev/zero"]
  downloadMarkers := ["curl"]
  shellMarkers := ["bash"]
  secretMarkers := ["password", "passwd", "pwd", "secret", "token", "key", "api_key", "apikey",
    "auth", "credential"]
  secretReferenceMarkers := ["$\x7b\x7b", "secrets."]
  inlineSecretPattern := presetSecretPattern
  untrustedContexts := ["github.event", "github.head_ref"]
  mutableRefs := ["main", "master", "develop"]
  cacheActions := ["actions/cache"]
  uploadActions := ["actions/upload-artifact"]
  localActionStart := "./"
  containerActionStart := "docker://"
  limits := .preset
  detectCycles := false

def isLocalAction (p : Policy) (uses : String) : Bool :=
  Text.startsWith uses p.localActionStart

def isContainerAction (p : Policy) (uses : String) : Bool :=
  Text.startsWith uses p.containerActionStart

end Policy

end WorkflowLint
