import JobHierarchy.CommandLine.Command
/-!
# Carrying out commands

A command is carried out on a connection and comes to a text to print. Nothing is printed by a
command that fails.
-/

namespace JobHierarchy.CommandLine

/-- A program for a command: it can fail as commands do. -/
abbrev Work := ExceptT Failure Program

def Work.ofOperation {α : Type} (t : Operation α) : Work α :=
  ExceptT.mk do return (← t.run).mapError .cause

/-- How things are shown. -/
structure Display where
  format : Output.Format
  coloured : Bool
  deriving DecidableEq, Repr

def successLine (text : String) : String := "✅ " ++ text ++ "\n"

def warningLine (text : String) : String := "⚠️  " ++ text ++ "\n"

def failureLine (text : String) : String := "❌ " ++ text ++ "\n"

def FolderCommand.perform (display : Display) (connection : Connection) :
    FolderCommand → Work String
  | .resolve path lazily => do
    match ← Work.ofOperation (connection.server.resolve path lazily) with
    | some handle => return (Output.Item.ofFolder path handle).render display.format
    | none => return warningLine "Top-level path has no folder"
  | .create path clean => do
    let handle ← Work.ofOperation (connection.server.createFolderChain path clean)
    return (Output.Item.ofFolder path handle).render display.format
  | .delete path => do
    Work.ofOperation (JobServer.deleteFolderPath path)
    return successLine ("Folder deleted: " ++ path.display)

/-- The parameters given by name, with the main one on top. -/
def templateParams (kind : TemplateKind) (value : Option String)
    (params : List (String × String)) : Except Failure TemplateParams :=
  match value, kind.primaryParam? with
  | none, _ => .ok (.ofList params)
  | some value, some key => .ok ((TemplateParams.ofList params).set key value)
  | some _, none => .error (.noPrimaryParam kind)

def JobCommand.perform (connection : Connection) : JobCommand → Work String
  | .create name folder kind value params createFolders => do
    let params ← ExceptT.mk (.done (templateParams kind value params))
    Work.ofOperation do
      let scope ← connection.server.resolve folder createFolders
      let _ ← connection.server.createJob kind scope name params
    return successLine ("Created " ++ kind.name ++ " job " ++ folder.displayItem name)
  | .delete name folder => do
    Work.ofOperation do
      let scope ← connection.server.resolve folder false
      JobServer.deleteJob scope name
    return successLine ("Job deleted: " ++ folder.displayItem name)

def BuildCommand.perform (display : Display) (connection : Connection) :
    BuildCommand → Work String
  | .run job folder none => do
    Work.ofOperation (connection.server.build folder job)
    return successLine ("Triggered " ++ folder.displayItem job)
  | .run job folder (some branch) => do
    Work.ofOperation (connection.server.buildBranch folder job branch)
    return successLine ("Triggered " ++ folder.displayItem job ++ " branch " ++ branch)
  | .abort job folder => do
    let stopped ← Work.ofOperation (connection.server.abortAllBuilds folder job)
    return successLine
      ("Stopped " ++ toString stopped ++ " build(s) under " ++ folder.displayItem job)
  | .last job folder => do
    let result ← Work.ofOperation (connection.server.lastBuildResult folder job)
    return (Output.Item.ofBuild display.coloured (folder.displayItem job) result).render
      display.format
  | .wait job folder result timeout => do
    let timeout := (timeout.map (· * 1000)).getD connection.waitTimeout
    Work.ofOperation
      (connection.server.waitForBuildResult connection.poller ⟨folder, job, result⟩ timeout)
    return successLine (folder.displayItem job ++ " finished with " ++ result.word)

/-- What a command comes to. -/
def Command.perform (display : Display) (connection : Connection) : Command → Work String
  | .folder c => c.perform display connection
  | .job c => c.perform connection
  | .build c => c.perform display connection

end JobHierarchy.CommandLine
