import JobHierarchy.Program
import JobHierarchy.Template.Source
/-!
# Finding folders

A folder path becomes a handle by walking down from the top level, one look-up and one folder view
for each segment. Missing folders can be made on the way. Someone else may make a folder between
the look-up and the request: what counts is whether a second look-up finds it.
-/

namespace JobHierarchy

/-- A job server as an operation needs to know it. -/
structure JobServer where
  baseUrl : String
  templates : TemplateSource
  credentials : Option Credentials

namespace JobServer

/-- The server at a URL, with the built-in definitions. -/
def ofUrl (url : String) : JobServer where
  baseUrl := withSlash url
  templates := .builtIn
  credentials := none

/-- A description that does not show the token. -/
def describe (server : JobServer) : String :=
  "JobServer \x7b base_url: " ++ Text.quoted server.baseUrl
    ++ ", credentials: " ++ Credentials.describe? server.credentials ++ ", .. \x7d"

/-- The handle of the folder `name` in a scope. -/
def childFolder (server : JobServer) (scope : Option FolderHandle) (name : String) :
    FolderHandle :=
  .ofUrl (itemUrl server.baseUrl scope name)

/-- Renders a definition and reports how its template was found. -/
def definition (server : JobServer) (kind : TemplateKind) (params : TemplateParams) :
    Operation String := do
  let (text, events) ← Operation.ofExcept (server.templates.render kind params)
  Operation.reportAll events
  return text

/-- Asks for a folder without looking whether it is there. -/
def createFolder (server : JobServer) (scope : Option FolderHandle) (name : String) :
    Operation FolderHandle := do
  let target := scopeUrl server.baseUrl scope
  let definition ← server.definition .folder []
  Operation.ask (.submitFolder target name definition server.credentials)
  Operation.report .info ("Created folder: " ++ name)
  return server.childFolder scope name

/-- Asks for a folder and looks it up. A failure to create it does not matter if it is there. -/
def createAndFind (server : JobServer) (scope : Option FolderHandle) (name : String) :
    Operation JobRef := do
  let attempt ← Operation.outcome (server.createFolder scope name)
  match ← Operation.ask (.getJob scope name), attempt with
  | some job, .error e =>
    Operation.report .warn ("Folder " ++ name ++ " exists despite creation error: " ++ e.message)
    return job
  | some job, .ok _ => return job
  | none, .error e => throw e
  | none, .ok _ => throw (.notFound "folder" name)

/-- Walks down from `scope`, the folder that the segments of `above` led to. -/
def resolveBelow (server : JobServer) (create : Bool) (above : List String)
    (scope : Option FolderHandle) : List String → Operation (Option FolderHandle)
  | [] => return scope
  | segment :: rest => do
    let here := above ++ [segment]
    let shown := "/".intercalate here
    let job ← match ← Operation.ask (.getJob scope segment) with
      | some job => pure job
      | none =>
        if create then server.createAndFind scope segment
        else throw (.notFound "folder" shown)
    match ← Operation.ask (.folderView job) with
    | some view => server.resolveBelow create here (some view.handle) rest
    | none => throw (.notFound "folder" (shown ++ " (not a folder)"))

/-- The handle of a folder; no handle for the top level. With `create`, missing folders are made
in order; else the first missing one is an error. -/
def resolve (server : JobServer) (path : FolderPath) (create : Bool) :
    Operation (Option FolderHandle) := do
  let handle ← server.resolveBelow create [] none path.segments
  Operation.report .debug ("Resolved folder '" ++ path.display ++ "'")
  return handle

end JobServer

end JobHierarchy
