import JobHierarchy.FolderPath
import JobHierarchy.BuildResult
import JobHierarchy.FileTree
import JobHierarchy.Json.Decode
import JobHierarchy.Settings
import JobHierarchy.Template.Kind
import JobHierarchy.Toml.Reader
/-!
# Paths, kinds, results and settings in documents

How the words and the settings of the domain stand in documents.
-/

namespace JobHierarchy

open Json.Decode

/-- A path stands in a document in its slash form. -/
def FolderPath.ofDocument (s : String) : Except Detail FolderPath :=
  match FolderPath.parse s with
  | .ok path => .ok path
  | .error e => .error (.refused e.message)

def FolderPath.ofJsonText (text : String) : Except DocumentFault FolderPath :=
  scalarText FolderPath.ofDocument text

def TemplateKind.ofDocument (s : String) : Except Detail TemplateKind :=
  match TemplateKind.ofDocumentName? s with
  | some kind => .ok kind
  | none => .error (.unknownVariant s)

def TemplateKind.ofJsonText (text : String) : Except DocumentFault TemplateKind :=
  variantText TemplateKind.ofDocument text

def BuildResult.ofJsonText (text : String) : Except DocumentFault BuildResult :=
  variantText (fun s => .ok (BuildResult.ofWord s)) text

def BuildResult.ofJson (v : Json) : Except DocumentFault BuildResult :=
  variant (fun s => .ok (BuildResult.ofWord s)) v

/-! ## Settings -/

structure CredentialsDraft where
  username : Option String := none
  apiToken : Option String := none

/-- Credentials are a record of two required fields. -/
def Credentials.ofJson (exact : Bool) (v : Json) : Except DocumentFault Credentials := do
  let (draft, form) ← fields ["username", "api_token"] exact ({} : CredentialsDraft)
    (fun d i v => match i with
      | 0 => do return { d with username := some (← string v) }
      | _ => do return { d with apiToken := some (← string v) }) v
  return ⟨← required form "username" draft.username, ← required form "api_token" draft.apiToken⟩

/-- Settings are a record of fields that have defaults. Arrays that are too long are refused where
`exact`. -/
def Settings.ofJson (exact : Bool) (v : Json) : Except DocumentFault Settings := do
  let names := ["base_url", "credentials", "poll_interval_ms", "wait_timeout_ms",
    "request_timeout_ms"]
  let (settings, _) ← fields names exact Settings.default
    (fun s i v => match i with
      | 0 => do return { s with baseUrl := ← string v }
      | 1 => do return { s with credentials := ← optional (Credentials.ofJson exact) v }
      | 2 => do return { s with pollInterval := ← natural v }
      | 3 => do return { s with waitTimeout := ← natural v }
      | _ => do return { s with requestTimeout := ← natural v }) v
  return settings

/-- Settings from the text of a settings file. -/
def Settings.ofToml (text : String) : Except DocumentFault Settings :=
  match Toml.parse? text with
  | some v => Settings.ofJson false v
  | none => .error none

/-- Settings from a file, without the environment. -/
def Settings.ofFile (files : FileView) (path : String) : Except Error Settings :=
  match files.read path with
  | .ok text => (Settings.ofToml text).mapError .toml
  | .error fault => .error (.io fault)

end JobHierarchy
