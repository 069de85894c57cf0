import JobHierarchy.Resolver
/-!
# Creating and deleting items

Deleting what is gone already succeeds. Creating a job replaces the job of that name. Only
top-level folders can be deleted, with all that is in them.
-/

namespace JobHierarchy.JobServer

/-- Deletes an item; an absent one counts as deleted. -/
def deleteItem (kind : String) (scope : Option FolderHandle) (name : String) : Operation Unit := do
  match ← Operation.outcome (Operation.ask (.deleteJob scope name)) with
  | .ok () => Operation.report .info ("Deleted " ++ kind ++ " " ++ name)
  | .error e =>
    if e.isNotFound then Operation.report .debug (kind ++ " " ++ name ++ " already absent")
    else throw e

def deleteJob (scope : Option FolderHandle) (name : String) : Operation Unit :=
  deleteItem "job" scope name

/-- Deletes a top-level folder. A folder in a folder is refused without a request. -/
def deleteFolder (scope : Option FolderHandle) (name : String) : Operation Unit :=
  match scope with
  | some parent =>
    throw (.unsupported
      ("deleting a nested folder is not supported (" ++ parent.url ++ "job/" ++ name ++ ")"))
  | none => deleteItem "folder" none name

/-- Deletes the top-level folder that a path of one segment names. -/
def deleteFolderPath (path : FolderPath) : Operation Unit :=
  match path.segments with
  | [] => throw (.unsupported "cannot delete the top-level scope")
  | [root] => deleteFolder none root
  | _ =>
    throw (.unsupported ("deleting a nested folder is not supported (" ++ path.display ++ ")"))

/-- Replaces `name` by a job of the given kind. The old job goes first, so a definition that
cannot be rendered leaves no job behind. -/
def createJob (server : JobServer) (kind : TemplateKind) (scope : Option FolderHandle)
    (name : String) (params : TemplateParams) : Operation JobRef := do
  if kind = .folder then
    throw (.unsupported "folders are created with create_folder")
  deleteJob scope name
  let definition ← server.definition kind params
  Operation.ask (.createJob scope name definition)
  Operation.report .info ("Created " ++ kind.name ++ " job " ++ name)
  let job : JobRef := ⟨scope, name⟩
  if kind.triggersInitialBuild then
    Operation.ask (.triggerBuild job)
    Operation.report .info ("Triggered initial build of " ++ name)
  return job

/-- `createJob` with only the primary parameter of the kind. -/
def createFrom (server : JobServer) (kind : TemplateKind) (scope : Option FolderHandle)
    (name value : String) : Operation JobRef :=
  server.createJob kind scope name (.primary kind value)

/-- Creates folders one in the other and gives the deepest. -/
def createFoldersBelow (server : JobServer) (last : FolderHandle) :
    List String → Operation FolderHandle
  | [] => return last
  | name :: rest => do
    let next ← server.createFolder (some last) name
    server.createFoldersBelow next rest

/-- Creates every folder of a path, from a clean slate if asked for. -/
def createFolderChain (server : JobServer) (path : FolderPath) (deleteRoot : Bool) :
    Operation FolderHandle :=
  match path.segments with
  | [] => throw (.invalidPath "cannot create an empty folder chain")
  | root :: rest => do
    if deleteRoot then deleteFolder none root
    let first ← server.createFolder none root
    server.createFoldersBelow first rest

end JobHierarchy.JobServer
