import JobHierarchy.Handle
import JobHierarchy.Memory.Tree
/-!
# Addresses on the in-memory server

The item at `a/b` has the URL `BASE/job/a/job/b/`, and its build 3 the same with `3/` behind it.
Reading a URL takes its parts two by two: a part `job` and an encoded name make one step, any other
pair is skipped, and a part left over, such as a build number, is dropped.
-/

namespace JobHierarchy.Memory

def baseUrl : String := "http://jobtree.invalid/"

def urlOf (path : ItemPath) : String := baseUrl ++ String.join (path.map itemStep)

/-- The names in a row of URL parts. -/
def namesOf : List (List Char) → ItemPath
  | step :: name :: rest =>
    if step = ['j', 'o', 'b'] then String.ofList (Segment.decodeChars name) :: namesOf rest
    else namesOf rest
  | _ => []

/-- The path of the item that a URL is about. -/
def pathOf (url : String) : ItemPath :=
  let below := (Text.after? baseUrl.toList url.toList).getD url.toList
  namesOf ((Text.splitAt '/' below).filter (· ≠ []))

/-- The path of a scope; no handle is the top level. -/
def scopePath : Option FolderHandle → ItemPath
  | some folder => pathOf folder.url
  | none => []

def jobPath (job : JobRef) : ItemPath := (scopePath job.folder).item job.name

def buildPath (build : BuildHandle) : ItemPath := pathOf build.url

end JobHierarchy.Memory
