import JobHierarchy.BuildResult
import JobHierarchy.FolderPath
import JobHierarchy.Handle
import JobHierarchy.Json.Printer
import JobHierarchy.Output.Table
import JobHierarchy.Yaml.Printer
/-!
# Showing items

What a command finds out is an item of a few fields, which can be shown as a table, as lines, or as
a document. A reader sees a field with a heading and a program with a name, and a build result may
be coloured for the reader.
-/

namespace JobHierarchy.Output

inductive Format where
  | table
  | json
  | yaml
  | plain
  deriving DecidableEq, Repr, Inhabited

namespace Format

def all : List Format := [.table, .json, .yaml, .plain]

def name : Format → String
  | .table => "table"
  | .json => "json"
  | .yaml => "yaml"
  | .plain => "plain"

def ofName? (s : String) : Option Format := all.find? fun f => f.name = s

end Format

structure Field where
  heading : String
  name : String
  /-- For a reader. -/
  text : String
  /-- For a program. -/
  value : Option String
  deriving DecidableEq, Repr

abbrev Item := List Field

/-- The text in a colour of the terminal. -/
def painted (code text : String) : String := "\x1b[" ++ code ++ "m" ++ text ++ "\x1b[0m"

/-- Green, yellow and red for what went well, fairly and badly, cyan for what goes on, and faint for
the rest. -/
def colourCode : Option BuildResult → String
  | some .success => "32"
  | some .unstable => "33"
  | some .failure => "31"
  | some _ => "2"
  | none => "36"

/-- A build result for a reader; a running build has none. -/
def resultLabel (coloured : Bool) (result : Option BuildResult) : String :=
  let word := (result.map BuildResult.word).getD "RUNNING"
  if coloured then painted (colourCode result) word else word

namespace Item

def ofFolder (path : FolderPath) (handle : FolderHandle) : Item := [
  ⟨"Path", "path", path.display, some path.display⟩,
  ⟨"URL", "url", handle.url, some handle.url⟩]

def ofBuild (coloured : Bool) (job : String) (result : Option BuildResult) : Item := [
  ⟨"Job", "job", job, some job⟩,
  ⟨"Result", "result", resultLabel coloured result, result.map BuildResult.word⟩]

def toTable (item : Item) : Table := ⟨item.map (·.heading), [item.map (·.text)]⟩

def toJson (item : Item) : Json :=
  .object (item.map fun f => (f.name, match f.value with
    | some text => .string text
    | none => .null))

def toLines (item : Item) : List String := item.map fun f => f.heading ++ ": " ++ f.text

/-- The item as it is printed. -/
def render (item : Item) : Format → String
  | .table => "\n".intercalate item.toTable.draw ++ "\n"
  | .json => item.toJson.pretty ++ "\n"
  | .yaml => Yaml.Printer.record (item.map fun f => (f.name, f.value))
  | .plain => "\n".intercalate item.toLines ++ "\n"

end Item

end JobHierarchy.Output
