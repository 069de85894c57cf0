import JobHierarchy.Memory.Address
import JobHierarchy.Request
/-!
# The in-memory server

A `Server` answers requests from a tree of items. It records every request, and it can be told to
fail some of them. An item is created only in a scope that is the top level or an item that can
hold others, so no item is without its folder.
-/

namespace JobHierarchy.Memory

/-- A request as it is recorded: by the path it is about. -/
inductive Call where
  | getJob (path : ItemPath)
  | folderView (path : ItemPath)
  | createFolder (path : ItemPath)
  | createJob (path : ItemPath)
  | deleteJob (path : ItemPath)
  | triggerBuild (path : ItemPath)
  | listBuilds (path : ItemPath)
  | buildResult (path : ItemPath) (number : Nat)
  | stopBuild (path : ItemPath) (number : Nat)
  deriving DecidableEq, Repr

/-- The requests that a server is told to fail, by path, with the status to answer. -/
abbrev Failures := List (ItemPath × Nat)

structure Server where
  tree : Tree
  calls : Array Call
  /-- Folders whose next creation is answered as if someone else had been faster. -/
  racing : List ItemPath
  deleteFailures : Failures
  folderFailures : Failures
  listingFailures : Failures
  /-- The result of builds from the moment they are triggered; nothing: they run. -/
  triggeredResult : Option BuildResult
  deriving DecidableEq, Repr

namespace Server

def empty : Server where
  tree := .empty
  calls := #[]
  racing := []
  deleteFailures := []
  folderFailures := []
  listingFailures := []
  triggeredResult := none

instance : Inhabited Server := ⟨empty⟩

def record (s : Server) (call : Call) : Server := { s with calls := s.calls.push call }

/-- The item at `path`. -/
def node (s : Server) (path : ItemPath) : Except Error Node :=
  match s.tree.get? path with
  | some node => .ok node
  | none => .error (.notFound "job" path.display)

/-- Whether items can be created in a scope. -/
def checkScope (s : Server) (scope : ItemPath) : Except Error Unit :=
  if scope = [] then .ok ()
  else match s.tree.get? scope with
    | some node =>
      if node.kind = .job then
        .error (.transport (some 400) (scope.display ++ " is not a folder"))
      else .ok ()
    | none => .error (.notFound "folder" scope.display)

def nameTaken (name : String) : Error :=
  .transport (some 400) ("A job already exists with the name '" ++ name ++ "'")

/-- The tree with a new item in a scope. -/
def insertItem (s : Server) (scope : ItemPath) (name : String) (node : Node) :
    Except Error Tree := do
  s.checkScope scope
  let path := scope.item name
  if s.tree.contains path then throw (nameTaken name)
  return s.tree.insert path node

/-- The text that marks the definition of an item that holds jobs. -/
def containerMark : List Char := "WorkflowMultiBranchProject".toList

/-- What a definition makes. -/
def kindOfDefinition (definition : String) : NodeKind :=
  if (Text.cutAt? containerMark definition.toList).isSome then .container else .job

/-- The builds with build `number` made `result`; nothing if there is no such build. -/
def setBuild? (number : Nat) (result : Option BuildResult) (builds : List (Option BuildResult)) :
    Option (List (Option BuildResult)) :=
  if 0 < number ∧ number ≤ builds.length then some (builds.set (number - 1) result) else none

def noBuild (path : ItemPath) (number : Nat) : Error :=
  .notFound "build" (path.display ++ " #" ++ toString number)

/-- The result of one build. -/
def result (s : Server) (path : ItemPath) (number : Nat) : Except Error (Option BuildResult) := do
  let node ← s.node path
  if number = 0 then throw (noBuild path number)
  match node.builds[number - 1]? with
  | some result => return result
  | none => throw (noBuild path number)

/-- The tree with one build made `result`. -/
def withResult (s : Server) (path : ItemPath) (number : Nat) (result : Option BuildResult) :
    Except Error Tree := do
  let node ← s.node path
  match setBuild? number result node.builds with
  | some builds => return s.tree.insert path { node with builds }
  | none => throw (noBuild path number)

/-! ## Requests -/

def getJob (s : Server) (scope : Option FolderHandle) (name : String) : Option JobRef :=
  if s.tree.contains ((scopePath scope).item name) then some ⟨scope, name⟩ else none

def folderView (s : Server) (path : ItemPath) : Except Error (Option FolderView) := do
  let node ← s.node path
  if node.kind = .job then return none
  return some ⟨.ofUrl (urlOf path), s.tree.children path⟩

def createJob (s : Server) (scope : ItemPath) (name definition : String) : Except Error Tree :=
  s.insertItem scope name ⟨kindOfDefinition definition, some definition, []⟩

def deleteJob (s : Server) (path : ItemPath) : Except Error Tree := do
  if let some status := s.deleteFailures.lookup path then
    throw (.transport (some status) ("cannot delete " ++ path.display))
  let _ ← s.node path
  return s.tree.eraseBelow path

def triggerBuild (s : Server) (path : ItemPath) : Except Error Tree := do
  let node ← s.node path
  if node.kind = .folder then
    throw (.transport (some 405) (path.display ++ " is not buildable"))
  return s.tree.insert path { node with builds := node.builds ++ [s.triggeredResult] }

/-- Build numbers have 32 bits; the newest build comes first. -/
def listBuilds (s : Server) (path : ItemPath) : Except Error (List BuildHandle) := do
  if let some status := s.listingFailures.lookup path then
    throw (.transport (some status) ("cannot list builds of " ++ path.display))
  let node ← s.node path
  let url := urlOf path
  return ((List.range' 1 (node.builds.length % UInt32.size)).map fun number =>
    (⟨number, url ++ toString number ++ "/"⟩ : BuildHandle)).reverse

/-- A build that has a result keeps it. -/
def stopBuild (s : Server) (path : ItemPath) (number : Nat) : Except Error Tree := do
  match ← s.result path number with
  | some _ => return s.tree
  | none => s.withResult path number (some .aborted)

/-- What became of a request to create a folder: the answer, the tree, and the races still to
come. -/
def submitFolder (s : Server) (scope : ItemPath) (name : String) : Except Error Unit × Server :=
  let path := scope.item name
  match s.folderFailures.lookup path with
  | some status => (.error (.transport (some status) ("cannot create " ++ path.display)), s)
  | none =>
    let raced := s.racing.contains path
    let s := { s with racing := s.racing.filter (· != path) }
    match s.insertItem scope name (.ofKind .folder) with
    | .error e => (.error e, s)
    | .ok tree => (if raced then .error (nameTaken name) else .ok (), { s with tree })

/-- The server after a request that changes the tree, if it succeeds. -/
def changed (s : Server) : Except Error Tree → Except Error Unit × Server
  | .ok tree => (.ok (), { s with tree })
  | .error e => (.error e, s)

/-- The record of a request. -/
def callOf : Request → Call
  | .getJob scope name => .getJob ((scopePath scope).item name)
  | .folderView job => .folderView (jobPath job)
  | .createJob scope name _ => .createJob ((scopePath scope).item name)
  | .deleteJob scope name => .deleteJob ((scopePath scope).item name)
  | .triggerBuild job => .triggerBuild (jobPath job)
  | .listBuilds job => .listBuilds (jobPath job)
  | .buildResult build => .buildResult (buildPath build) build.number
  | .stopBuild build => .stopBuild (buildPath build) build.number
  | .submitFolder target name _ _ => .createFolder ((pathOf target).item name)

/-- The answer to a request that has been recorded, and the server after it. -/
def answer (s : Server) : (r : Request) → Except Error r.Answer × Server
  | .getJob scope name => (.ok (s.getJob scope name), s)
  | .folderView job => (s.folderView (jobPath job), s)
  | .createJob scope name definition => s.changed (s.createJob (scopePath scope) name definition)
  | .deleteJob scope name => s.changed (s.deleteJob ((scopePath scope).item name))
  | .triggerBuild job => s.changed (s.triggerBuild (jobPath job))
  | .listBuilds job => (s.listBuilds (jobPath job), s)
  | .buildResult build => (s.result (buildPath build) build.number, s)
  | .stopBuild build => s.changed (s.stopBuild (buildPath build) build.number)
  | .submitFolder target name _ _ => s.submitFolder (pathOf target) name

/-- Answers a request. -/
def perform (s : Server) (r : Request) : Except Error r.Answer × Server :=
  (s.record (callOf r)).answer r

end Server

end JobHierarchy.Memory
