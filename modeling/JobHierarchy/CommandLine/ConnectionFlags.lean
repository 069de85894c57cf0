import JobHierarchy.CommandLine.Failure
import JobHierarchy.CommandLine.Scan
import JobHierarchy.Connection
import JobHierarchy.Documents
/-!
# Flags of a connection

The flags that say which server to talk to and how. They lie on top of the settings from a file and
from the environment. The environment gives an address, a user and a token also to a flag that is
absent, so that user and token may come from different places.
-/

namespace JobHierarchy

/-- The value of a variable by its name. -/
def Environment.get? (env : Environment) : String → Option String
  | "JOBTREE_URL" => env.url
  | "JOBTREE_USER" => env.user
  | "JOBTREE_TOKEN" => env.token
  | "JOBTREE_POLL_INTERVAL_MS" => env.pollInterval
  | "JOBTREE_TIMEOUT_MS" => env.timeout
  | _ => none

namespace CommandLine

structure ConnectionFlags where
  url : Option String
  user : Option String
  token : Option String
  /-- The path of a file with settings. -/
  config : Option String
  /-- The path of a directory with templates. -/
  templates : Option String
  /-- In milliseconds. -/
  pollInterval : Option Nat
  deriving DecidableEq, Repr

/-! ## Meanings of values -/

def readText (text : String) : Except ValueFault String := .ok text

/-- No path is empty. -/
def readPath (text : String) : Except ValueFault String :=
  if text = "" then .error .empty else .ok text

def readNumber (text : String) : Except ValueFault Nat :=
  (Text.natural64 text).mapError fun fault => .refused fault.message

/-- The parameter with a variable of the environment for when it is absent. -/
def Parameter.orVariable {α : Type} (p : Parameter α) (variableName : String) : Parameter α :=
  { p with argument := { p.argument with fallback := some variableName } }

/-- The parameter where it needs another one beside it. -/
def Parameter.with {α : Type} (p : Parameter α) (partner : String) : Parameter α :=
  { p with argument := { p.argument with partner := some partner } }

namespace ConnectionFlags

def urlFlag : Parameter String :=
  (Parameter.option "url" none "URL" readText "Job server base URL").orVariable "JOBTREE_URL"

def userFlag : Parameter String :=
  ((Parameter.option "user" none "USER" readText "User name for basic auth").orVariable
    "JOBTREE_USER").with "token"

def tokenFlag : Parameter String :=
  ((Parameter.option "token" none "TOKEN" readText "API token for basic auth").orVariable
    "JOBTREE_TOKEN").with "user"

def configFlag : Parameter String :=
  .option "config" none "CONFIG" readPath "TOML file with server settings"

def templatesFlag : Parameter String :=
  .option "templates" none "TEMPLATES" readPath
    "Directory with job definition templates overriding the built-in ones"

def pollIntervalFlag : Parameter Nat :=
  .option "poll-interval-ms" none "POLL_INTERVAL_MS" readNumber "Polling interval in milliseconds"

def options : List Argument := [
  urlFlag.argument, userFlag.argument, tokenFlag.argument, configFlag.argument,
  templatesFlag.argument, pollIntervalFlag.argument]

def ofFound (found : Found) : Except Stop ConnectionFlags := do
  return {
    url := ← found.value? urlFlag
    user := ← found.value? userFlag
    token := ← found.value? tokenFlag
    config := ← found.value? configFlag
    templates := ← found.value? templatesFlag
    pollInterval := ← found.value? pollIntervalFlag }

/-- The directories and the files that the settings and the templates are read from. -/
def paths (flags : ConnectionFlags) : List String × List String :=
  let directories := flags.templates.toList
  (directories, flags.config.toList ++ directories.flatMap fun path =>
    TemplateKind.all.map fun kind => FileView.entry path kind.fileName)

/-! ## Settings -/

/-- The settings below the flags: those of the environment on top of a file or the defaults. -/
def settingsBelow (flags : ConnectionFlags) (files : FileView) (env : Environment) :
    Except Failure Settings :=
  match flags.config with
  | some path =>
    (Settings.ofFile files path >>= fun s => s.withEnvironment env).mapError
      (.during ("Failed to load config " ++ path))
  | none => (Settings.default.withEnvironment env).mapError .cause

/-- The flags on top of settings. User and token count only together. -/
def apply (flags : ConnectionFlags) (s : Settings) : Settings :=
  { s with
    baseUrl := flags.url.getD s.baseUrl
    credentials := match flags.user, flags.token with
      | some user, some token => some ⟨user, token⟩
      | _, _ => s.credentials
    pollInterval := flags.pollInterval.getD s.pollInterval }

/-- The settings in force. What lies below the flags has to be sound by itself too. -/
def settings (flags : ConnectionFlags) (files : FileView) (env : Environment) :
    Except Failure Settings := do
  let s := flags.apply (← flags.settingsBelow files env)
  s.validate.mapError Failure.cause
  return s

/-- The templates that definitions are made from. -/
def templateSource (flags : ConnectionFlags) (files : FileView) : Except Failure TemplateSource :=
  match flags.templates with
  | some path => (TemplateSource.openDirectory files path).mapError
      (.during ("Failed to open templates " ++ path))
  | none => .ok .builtIn

/-- The connection that settings in force describe. -/
def connection (flags : ConnectionFlags) (files : FileView) (s : Settings) :
    Except Failure Connection := do
  let templates ← flags.templateSource files
  (Connection.ofSettings s templates).mapError Failure.cause

/-- What is reported before connecting. -/
def connecting (s : Settings) : LogEvent := ⟨.debug, "Connecting to " ++ s.baseUrl⟩

/-- The connection to talk over, with what is reported on the way to it. -/
def connect (flags : ConnectionFlags) (files : FileView) (env : Environment) :
    Except Failure Connection × List LogEvent :=
  match flags.settings files env with
  | .error failure => (.error failure, [])
  | .ok s => (flags.connection files s, [connecting s])

end ConnectionFlags

end CommandLine

end JobHierarchy
