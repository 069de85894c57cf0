import JobHierarchy.Error
import JobHierarchy.Text.Split
/-!
# Folder paths

A `FolderPath` names a folder by the folder names on the way to it; the empty path is the top
level. Every segment is an item name: not empty and without a slash. `parse` reads the slash form
and tolerates one slash in front and one behind.
-/

namespace JobHierarchy

/-- The names that one level of the hierarchy can give to an item. -/
def IsItemName (s : String) : Prop :=
  s ≠ "" ∧ '/' ∉ s.toList

instance (s : String) : Decidable (IsItemName s) :=
  inferInstanceAs (Decidable (_ ∧ _))

/-- The address of a folder: the names from the top level down to it. -/
structure FolderPath where
  segments : List String
  named : ∀ s ∈ segments, IsItemName s
  deriving DecidableEq, Repr

namespace FolderPath

/-- The scope that holds the top-level items. -/
def topLevel : FolderPath := ⟨[], by simp⟩

instance : Inhabited FolderPath := ⟨topLevel⟩

/-- Why a text is not an item name. -/
def nameFault (s : String) : Error :=
  if s = "" then .invalidPath "folder names must not be empty"
  else .invalidPath ("folder name '" ++ s ++ "' must not contain '/'")

/-- A path of the given segments; the first that is no item name is refused. -/
def ofSegments (segments : List String) : Except Error FolderPath :=
  if h : ∀ s ∈ segments, IsItemName s then .ok ⟨segments, h⟩
  else .error (nameFault ((segments.find? fun s => ¬ IsItemName s).getD ""))

/-- The text without one slash in front and one behind, where there are such. -/
def trimSlashes (cs : List Char) : List Char :=
  let cs := match cs with
    | '/' :: rest => rest
    | _ => cs
  if cs.getLast? = some '/' then cs.dropLast else cs

/-- Reads `a/b`. -/
def parse (text : String) : Except Error FolderPath :=
  let cs := trimSlashes text.toList
  if cs = [] then .ok topLevel
  else
    match ofSegments ((Text.splitAt '/' cs).map String.ofList) with
    | .ok path => .ok path
    | .error _ => .error (.invalidPath ("'" ++ text ++ "' contains an empty segment"))

/-- The path one level deeper. -/
def append (path : FolderPath) (name : String) : Except Error FolderPath :=
  if h : IsItemName name then
    .ok ⟨path.segments ++ [name], by
      intro s hs
      rcases List.mem_append.1 hs with hs | hs
      · exact path.named s hs
      · rw [List.mem_singleton.1 hs]; exact h⟩
  else .error (nameFault name)

def length (path : FolderPath) : Nat := path.segments.length

def isTopLevel (path : FolderPath) : Bool := path.segments.isEmpty

/-- The top-level folder that the path lies under. -/
def root? (path : FolderPath) : Option String := path.segments.head?

/-- The slash form. -/
def display (path : FolderPath) : String := "/".intercalate path.segments

/-- The slash form of the item `name` in the folder. -/
def displayItem (path : FolderPath) (name : String) : String :=
  if path.isTopLevel then name else path.display ++ "/" ++ name

end FolderPath

end JobHierarchy
