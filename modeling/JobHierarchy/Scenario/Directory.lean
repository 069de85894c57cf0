import JobHierarchy.FileTree
import JobHierarchy.Scenario.Document
/-!
# Directories of scenarios

A directory of scenarios is read as a whole: every entry below it with the ending of a YAML file, a
directory in the order of its names. One file that cannot be used spoils the directory.
-/

namespace JobHierarchy.Scenario

/-- Whether a file name has an ending of YAML files. A name that is all ending has none. -/
def isSpecName (name : String) : Bool :=
  match (name.toList.reverse.span (· ≠ '.')) with
  | (ending, _ :: rest) =>
    rest ≠ [] && ["yaml", "yml"].contains (String.ofList ending.reverse)
  | (_, []) => false

/-- The last name in a path. -/
def fileName (path : String) : String := (FileTree.components path).getLast?.getD ""

def loadFile (files : FileView) (path : String) : Except Error Spec :=
  match files.read path with
  | .error fault => .error (.io fault)
  | .ok text => (Spec.ofYaml text).mapError (.inFile path)

/-- All scenarios of a directory. -/
def loadAll (files : FileView) (directory : String) : Except Error (List Spec) :=
  ((files.walk directory).filter fun path => isSpecName (fileName path)).mapM (loadFile files)

/-- Which scenarios of a directory to run. -/
inductive Selection where
  | all
  | tagged (tag : String)
  | named (name : String)
  deriving DecidableEq, Repr

/-- The scenarios to run. Of several with the name that is asked for, the first. -/
def Selection.choose (selection : Selection) (specs : List Spec) : Except Error (List Spec) :=
  match selection with
  | .all => .ok specs
  | .tagged tag => .ok (specs.filter (·.hasTag tag))
  | .named name =>
    match specs.find? (·.name = name) with
    | some spec => .ok [spec]
    | none => .error (.unusable ("Scenario not found: " ++ name))

end JobHierarchy.Scenario
