import JobHierarchy.Memory.Server
/-!
# Arranging a server

Putting items, builds and failures on an in-memory server, without a request. Items are named by
text with slashes. Folders that are missing on the way to an item are put there too; an item that
is there stays, except that a job can become one that holds jobs.
-/

namespace JobHierarchy.Memory.Server

/-- The item at `path`, unless there is one. -/
def addIfAbsent (s : Server) (path : ItemPath) (kind : NodeKind) : Server :=
  if s.tree.contains path then s else { s with tree := s.tree.insert path (.ofKind kind) }

/-- A folder and the folders above it. Empty names in the text are passed over. -/
def addFolder (s : Server) (text : String) : Server :=
  let names := (ItemPath.ofString text).filter (· != "")
  (List.range names.length).foldl
    (fun s depth => s.addIfAbsent (names.take (depth + 1)) .folder) s

/-- An item of another kind, in its folder. -/
def addItem (s : Server) (text : String) (kind : NodeKind) : Server :=
  let path := ItemPath.ofString text
  let above := ItemPath.display path.dropLast
  let s := if above = "" then s else s.addFolder above
  match s.tree.get? path with
  | none => { s with tree := s.tree.insert path (.ofKind kind) }
  | some node =>
    if kind = .container then { s with tree := s.tree.insert path { node with kind } } else s

def addJob (s : Server) (text : String) : Server := s.addItem text .job

def addMultibranch (s : Server) (text : String) : Server := s.addItem text .container

/-- A multi-branch pipeline with a branch. -/
def addBranch (s : Server) (text branch : String) : Server :=
  (s.addMultibranch text).addJob (if text = "" then branch else text ++ "/" ++ branch)

/-- One more build; gives its number, or nothing if there is no such item. -/
def addBuild? (s : Server) (text : String) (result : Option BuildResult) :
    Option (Nat × Server) :=
  let path := ItemPath.ofString text
  (s.tree.get? path).map fun node =>
    let builds := node.builds ++ [result]
    (builds.length % UInt32.size, { s with tree := s.tree.insert path { node with builds } })

/-- Gives a build a result, whatever it had before. -/
def finishBuild (s : Server) (text : String) (number : Nat) (result : BuildResult) :
    Except Error Server := do
  let tree ← s.withResult (ItemPath.ofString text) number (some result)
  return { s with tree }

def raceFolder (s : Server) (text : String) : Server :=
  { s with racing := ItemPath.ofString text :: s.racing }

/-- The failure of a path becomes `status`. -/
def setFailure (failures : Failures) (text : String) (status : Nat) : Failures :=
  let path := ItemPath.ofString text
  (path, status) :: failures.filter (·.1 != path)

def failDelete (s : Server) (text : String) (status : Nat) : Server :=
  { s with deleteFailures := setFailure s.deleteFailures text status }

def failFolder (s : Server) (text : String) (status : Nat) : Server :=
  { s with folderFailures := setFailure s.folderFailures text status }

def failListBuilds (s : Server) (text : String) (status : Nat) : Server :=
  { s with listingFailures := setFailure s.listingFailures text status }

def clearFailures (s : Server) : Server :=
  { s with deleteFailures := [], folderFailures := [], listingFailures := [] }

def clearCalls (s : Server) : Server := { s with calls := #[] }

def setTriggeredResult (s : Server) (result : Option BuildResult) : Server :=
  { s with triggeredResult := result }

def isFolder (s : Server) (text : String) : Bool :=
  match s.tree.get? (ItemPath.ofString text) with
  | some node => node.kind == .folder
  | none => false

end JobHierarchy.Memory.Server
