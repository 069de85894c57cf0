import JobHierarchy.Error
import JobHierarchy.Text.Blank
import JobHierarchy.Text.Number
import JobHierarchy.Text.Quoted
/-!
# Connection settings

Settings come in layers, a later layer winning: the defaults, a file, the environment, and the
flags of a command line. `Settings.withEnvironment` puts the environment on top of what lies below
and checks the outcome.
-/

namespace JobHierarchy

/-- A user and the token that authenticates requests. -/
structure Credentials where
  username : String
  apiToken : String
  deriving DecidableEq, Repr

/-- How to reach a server and how long to wait. All times are in milliseconds. -/
structure Settings where
  baseUrl : String
  credentials : Option Credentials
  pollInterval : Nat
  waitTimeout : Nat
  requestTimeout : Nat
  deriving DecidableEq, Repr

/-- The pause between two polls where nothing else is asked for. -/
def defaultPollInterval : Nat := 500

/-- The environment variables that settings are read from. -/
structure Environment where
  url : Option String
  user : Option String
  token : Option String
  pollInterval : Option String
  timeout : Option String
  deriving DecidableEq, Repr

/-- A description that does not show the token. -/
def Credentials.describe (c : Credentials) : String :=
  "Credentials \x7b username: " ++ Text.quoted c.username
    ++ ", api_token: \"<redacted>\" \x7d"

def Credentials.describe? : Option Credentials → String
  | some c => "Some(" ++ c.describe ++ ")"
  | none => "None"

def Environment.empty : Environment := ⟨none, none, none, none, none⟩

/-- The text with a slash at the end. -/
def withSlash (url : String) : String :=
  if url.toList.getLast? = some '/' then url else url ++ "/"

namespace Settings

def default : Settings where
  baseUrl := "http://127.0.0.1:8080/"
  credentials := none
  pollInterval := defaultPollInterval
  waitTimeout := 60000
  requestTimeout := 30000

instance : Inhabited Settings := ⟨default⟩

/-- The base URL with a slash at the end, so that a path can follow. -/
def normalizedBaseUrl (s : Settings) : String := withSlash s.baseUrl

def isHttpUrl (url : String) : Bool :=
  (Text.after? "http://".toList url.toList).isSome
    || (Text.after? "https://".toList url.toList).isSome

def validate (s : Settings) : Except Error Unit :=
  if !isHttpUrl s.baseUrl then
    .error (.config ("base_url must be an http(s) URL, got '" ++ s.baseUrl ++ "'"))
  else if s.pollInterval = 0 then .error (.config "poll_interval_ms must be positive")
  else .ok ()

/-- A description of all settings but the token. -/
def describe (s : Settings) : String :=
  "ServerConfig \x7b base_url: " ++ Text.quoted s.baseUrl
    ++ ", credentials: " ++ Credentials.describe? s.credentials
    ++ ", poll_interval_ms: " ++ toString s.pollInterval
    ++ ", wait_timeout_ms: " ++ toString s.waitTimeout
    ++ ", request_timeout_ms: " ++ toString s.requestTimeout ++ " \x7d"

/-- A number of milliseconds, with white space around it, from the variable `name`. -/
def readMillis (name value : String) : Except Error Nat :=
  match Text.natural64 (Text.trim value) with
  | .ok n => .ok n
  | .error _ =>
    .error (.config (name ++ " must be a number of milliseconds, got '" ++ value ++ "'"))

/-- The value of a variable, or what lies below it. -/
def overrideMillis (name : String) (value : Option String) (below : Nat) : Except Error Nat :=
  match value with
  | some text => readMillis name text
  | none => .ok below

/-- User and token count only together. -/
def overrideCredentials (env : Environment) (below : Option Credentials) :
    Except Error (Option Credentials) :=
  match env.user, env.token with
  | some user, some token => .ok (some ⟨user, token⟩)
  | none, none => .ok below
  | _, _ => .error (.config "JOBTREE_USER and JOBTREE_TOKEN must be set together")

/-- The environment on top of `s`, checked. -/
def withEnvironment (s : Settings) (env : Environment) : Except Error Settings := do
  let credentials ← overrideCredentials env s.credentials
  let pollInterval ← overrideMillis "JOBTREE_POLL_INTERVAL_MS" env.pollInterval s.pollInterval
  let waitTimeout ← overrideMillis "JOBTREE_TIMEOUT_MS" env.timeout s.waitTimeout
  let settings := { s with
    baseUrl := env.url.getD s.baseUrl
    credentials, pollInterval, waitTimeout }
  settings.validate
  return settings

end Settings

end JobHierarchy
