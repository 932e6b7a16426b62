import WorkflowLint.Rule.Basic
import WorkflowLint.Text.Lowercase

/-!
Security rules: which actions and commands a step may run, what a workflow may be permitted, and
where secrets and foreign text must not stand.
-/
namespace WorkflowLint.Rule

/-! ## Actions and commands -/

/-- An action is named by its repository, its place in this one, or an image. -/
def referenceIssues (p : Policy) (s : Step) : List Issue :=
  match s.uses with
  | none => []
  | some uses =>
    if uses = "" then []
    else if Text.mentions uses ".." then [.pathTraversal uses]
    else if p.isContainerAction uses || p.isLocalAction uses || Text.mentions uses "/" then []
    else [.notRepository uses]

def actionReference : Rule where
  name := "action_reference"
  group := .security
  notes c := onSteps c.workflow (referenceIssues c.policy)

/-- Whether a command may run what it downloads. -/
def isPipedDownload (p : Policy) (command : String) : Bool :=
  Text.mentions command "|" && Text.mentionsAny command p.downloadMarkers &&
    Text.mentionsAny command p.shellMarkers

def commandIssues (p : Policy) (s : Step) : List Issue :=
  match s.run with
  | none => []
  | some command =>
    match p.dangerousCommands.find? (Text.mentions command) with
    | some dangerous => [.dangerousCommand dangerous]
    | none => if isPipedDownload p command then [.pipedDownload] else []

def runCommand : Rule where
  name := "run_command"
  group := .security
  notes c := onSteps c.workflow (commandIssues c.policy)

/-! ## Permissions -/

/-- A permission has a known scope and a known level. -/
def permissionIssues (p : Policy) (permissions : Table String) : List Issue :=
  permissions.entries.filterMap fun (scope, level) =>
    if scope ∉ p.permissionScopes then some (.unknownPermission scope)
    else if level ∉ p.permissionLevels then some (.unknownLevel scope level p.permissionLevels)
    else none

def permissions : Rule where
  name := "permissions"
  group := .security
  notes c :=
    onWorkflow (permissionIssues c.policy c.workflow.permissions) ++
      onJobs c.workflow (fun _ j => permissionIssues c.policy j.permissions) fun _ => []

/-! ## Secrets -/

/-- Whether a variable has the name of a secret and a value of its own. -/
def isSecret (p : Policy) (name value : String) : Bool :=
  value ≠ "" && Text.mentionsAny (Text.lowercase name) p.secretMarkers &&
    !Text.mentionsAny value p.secretReferenceMarkers

def envIssues (p : Policy) (env : Table String) : List Issue :=
  env.entries.filterMap fun (name, value) =>
    if isSecret p name value then some (.secretInEnv name) else none

/-- The name that a match of the secret pattern gives a value to. -/
def assignedName (found : List Char) : String :=
  String.ofList (found.takeWhile (· ≠ '='))

def inlineIssues (pattern : Pattern.Expr) (s : Step) : List Issue :=
  match s.run with
  | none => []
  | some command =>
    match Pattern.find? pattern command.toList with
    | some found => [.secretInCommand (assignedName found)]
    | none => []

def hardcodedSecrets : Rule where
  name := "hardcoded_secrets"
  group := .security
  notes c :=
    onJobs c.workflow (fun _ j => envIssues c.policy j.env) fun s =>
      envIssues c.policy s.env ++ inlineIssues c.secretPattern s

/-! ## Expressions -/

/-- The context of the list that an expression names, if the text begins with one. -/
def contextAt? (contexts : List String) (cs : List Char) : Option String :=
  match cs with
  | '$' :: '\x7b' :: '\x7b' :: body =>
    contexts.find? fun c => c.toList.isPrefixOf (Text.trimStart body)
  | _ => none

def isQuote (c : Char) : Bool :=
  c == '"' || c == '\''

/-- The context of the first expression that names one and has no quote before it. -/
def untrusted? (contexts : List String) (before : Option Char) : List Char → Option String
  | [] => none
  | c :: cs =>
    match if before.any isQuote then none else contextAt? contexts (c :: cs) with
    | some context => some context
    | none => untrusted? contexts (some c) cs

def injectionIssues (p : Policy) (s : Step) : List Issue :=
  match s.run with
  | none => []
  | some command =>
    match untrusted? p.untrustedContexts none command.toList with
    | some context => [.untrustedContext context]
    | none => []

def expressionInjection : Rule where
  name := "expression_injection"
  group := .security
  notes c := onSteps c.workflow (injectionIssues c.policy)

end WorkflowLint.Rule
