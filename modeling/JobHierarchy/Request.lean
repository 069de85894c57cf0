import JobHierarchy.BuildResult
import JobHierarchy.Handle
/-!
# Requests

What can be asked of a job server, one request at a time, and the type of the answer to each.
-/

namespace JobHierarchy

inductive Request where
  /-- Look `name` up in a scope. -/
  | getJob (scope : Option FolderHandle) (name : String)
  /-- The item as a folder. -/
  | folderView (job : JobRef)
  | createJob (scope : Option FolderHandle) (name definition : String)
  | deleteJob (scope : Option FolderHandle) (name : String)
  | triggerBuild (job : JobRef)
  | listBuilds (job : JobRef)
  | buildResult (build : BuildHandle)
  | stopBuild (build : BuildHandle)
  /-- Create a folder by a form sent to the URL of a scope. -/
  | submitFolder (target name definition : String) (credentials : Option Credentials)
  deriving DecidableEq, Repr

/-- What a server answers when a request succeeds. -/
@[reducible] def Request.Answer : Request → Type
  /- nothing when the item is absent -/
  | .getJob .. => Option JobRef
  /- nothing for a plain job -/
  | .folderView .. => Option FolderView
  | .createJob .. => Unit
  | .deleteJob .. => Unit
  | .triggerBuild .. => Unit
  | .listBuilds .. => List BuildHandle
  /- nothing while the build runs -/
  | .buildResult .. => Option BuildResult
  | .stopBuild .. => Unit
  | .submitFolder .. => Unit

end JobHierarchy
