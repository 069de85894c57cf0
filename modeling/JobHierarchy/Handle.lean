import JobHierarchy.Settings
import JobHierarchy.Url.Segment
/-!
# Handles

A handle is what a server answered about an item: where a folder is, which job is meant, which
build. A folder handle is its URL, with a slash at the end. No handle stands for the top level.
-/

namespace JobHierarchy

/-- A folder that exists on the server, by its URL. -/
structure FolderHandle where
  url : String
  slashed : url.toList.getLast? = some '/'
  deriving DecidableEq, Repr

theorem withSlash_slashed (url : String) : (withSlash url).toList.getLast? = some '/' := by
  unfold withSlash
  split
  · assumption
  · simp

/-- The handle of the folder at a URL. -/
def FolderHandle.ofUrl (url : String) : FolderHandle := ⟨withSlash url, withSlash_slashed url⟩

/-- A job by its name in a folder. -/
structure JobRef where
  folder : Option FolderHandle
  name : String
  deriving DecidableEq, Repr

/-- One build of a job. -/
structure BuildHandle where
  number : Nat
  url : String
  deriving DecidableEq, Repr

/-- A folder-like item with the names of the items in it. -/
structure FolderView where
  handle : FolderHandle
  jobs : List String
  deriving DecidableEq, Repr

/-- The URL that the items of a scope are created against. -/
def scopeUrl (baseUrl : String) : Option FolderHandle → String
  | some folder => folder.url
  | none => baseUrl

/-- The URL of the item `name` in a scope. -/
def itemUrl (baseUrl : String) (scope : Option FolderHandle) (name : String) : String :=
  scopeUrl baseUrl scope ++ itemStep name

def JobRef.url (baseUrl : String) (job : JobRef) : String := itemUrl baseUrl job.folder job.name

end JobHierarchy
