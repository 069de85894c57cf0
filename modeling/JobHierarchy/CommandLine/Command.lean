import JobHierarchy.CommandLine.ConnectionFlags
import JobHierarchy.Output.Item
/-!
# Commands

What a user can ask for, and how it is written on a command line.
-/

namespace JobHierarchy.CommandLine

inductive FolderCommand where
  | resolve (path : FolderPath) (create : Bool)
  | create (path : FolderPath) (clean : Bool)
  | delete (path : FolderPath)
  deriving DecidableEq, Repr

inductive JobCommand where
  | create (name : String) (folder : FolderPath) (kind : TemplateKind) (value : Option String)
    (params : List (String × String)) (createFolders : Bool)
  | delete (name : String) (folder : FolderPath)
  deriving DecidableEq, Repr

inductive BuildCommand where
  | run (job : String) (folder : FolderPath) (branch : Option String)
  | abort (job : String) (folder : FolderPath)
  | last (job : String) (folder : FolderPath)
  /-- The timeout is in seconds. -/
  | wait (job : String) (folder : FolderPath) (result : BuildResult) (timeout : Option Nat)
  deriving DecidableEq, Repr

/-- A command to a server. -/
inductive Command where
  | folder (c : FolderCommand)
  | job (c : JobCommand)
  | build (c : BuildCommand)
  deriving DecidableEq, Repr

/-! ## Meanings of values -/

/-- A value of the domain, refused for the reason that the domain gives. -/
def readWith {α : Type} (parse : String → Except Error α) (text : String) :
    Except ValueFault α :=
  (parse text).mapError fun e => .refused e.message

/-- A name and a value with an equals sign between; the name is not empty. -/
def readParam (text : String) : Except ValueFault (String × String) :=
  match Text.cutAt? ['='] text.toList with
  | some (c :: name, value) => .ok (String.ofList (c :: name), String.ofList value)
  | _ => .error (.refused ("expected key=value, got '" ++ text ++ "'"))

def readFormat (text : String) : Except ValueFault Output.Format :=
  match Output.Format.ofName? text with
  | some format => .ok format
  | none => .error (.notAllowed (Output.Format.all.map Output.Format.name))

/-! ## Parameters -/

def formatFlag : Parameter Output.Format :=
  .option "format" none "FORMAT" readFormat
    "Output format [default: table] [possible values: table, json, yaml, plain]"

def pathPlace : Parameter FolderPath :=
  .positional "path" "PATH" (readWith FolderPath.parse)
    "Slash-separated folder path (e.g. teamA/projectX)"

def namePlace : Parameter String := .positional "name" "NAME" readText "Job name"

def jobPlace : Parameter String := .positional "job" "JOB" readText "Job or folder name"

def folderFlag : Parameter FolderPath :=
  .option "folder" (some 'f') "FOLDER" (readWith FolderPath.parse)
    "Folder path holding the job; empty for top level"

def kindFlag : Parameter TemplateKind :=
  .option "kind" (some 'k') "KIND" (readWith TemplateKind.parse)
    "Template kind (pipeline, multibranch, freestyle) [default: pipeline]"

def valueFlag : Parameter String :=
  .option "value" none "VALUE" readText "Main template parameter: script, repository or command"

def paramsFlag : Parameter (String × String) :=
  (Parameter.option "param" (some 'p') "PARAMS" readParam
    "Extra template parameters as key=value").repeatable

def branchFlag : Parameter String :=
  .option "branch" (some 'b') "BRANCH" readText "Build this branch of a multi-branch pipeline"

def resultFlag : Parameter BuildResult :=
  .option "result" (some 'r') "RESULT" (readWith BuildResult.parse)
    "Desired result [default: SUCCESS]"

def timeoutFlag : Parameter Nat :=
  .option "timeout" (some 't') "TIMEOUT" readNumber
    "Timeout in seconds (defaults to the configured wait timeout)"

def createSwitch : Argument := .switch "create" none "Create missing folders along the way"

def cleanSwitch : Argument := .switch "clean" none "Delete the top-level folder first"

def createFoldersSwitch : Argument := .switch "create-folders" none "Create missing folders"

/-! ## Grammars -/

/-- A command with nothing below it. -/
def leaf (shared : List Argument) (name about : String) (options positionals : List Argument) :
    Grammar where
  name
  about
  options := options ++ shared
  positionals
  commands := []
  needsCommand := false

/-- A group of commands. -/
def group (shared : List Argument) (name about : String) (commands : List Grammar) : Grammar where
  name
  about
  options := shared
  positionals := []
  commands
  needsCommand := true

namespace Command

/-- The commands to a server; the shared options can be given to each. -/
def grammars (shared : List Argument) : List Grammar :=
  let leaf := leaf shared
  let folder := folderFlag.argument
  [ group shared "folder" "Manage folders" [
      leaf "resolve" "Resolve a folder path to its URL" [createSwitch] [pathPlace.argument],
      leaf "create" "Create every folder of a path, one inside the other" [cleanSwitch]
        [pathPlace.argument],
      leaf "delete" "Delete a top-level folder and everything in it" [] [pathPlace.argument]],
    group shared "job" "Manage jobs" [
      leaf "create" "Create (or replace) a job from a template"
        [folder, kindFlag.argument, valueFlag.argument, paramsFlag.argument, createFoldersSwitch]
        [namePlace.argument],
      leaf "delete" "Delete a job; a missing job is not an error" [folder] [namePlace.argument]],
    group shared "build" "Trigger, abort and watch builds" [
      leaf "run" "Trigger a build" [folder, branchFlag.argument] [jobPlace.argument],
      leaf "abort" "Stop every running build of a job and everything below it" [folder]
        [jobPlace.argument],
      leaf "last" "Show the result of the latest build" [folder] [jobPlace.argument],
      leaf "wait" "Wait until the latest build finishes with the given result"
        [folder, resultFlag.argument, timeoutFlag.argument] [jobPlace.argument]]]

/-- Folders are searched for from the top level where nothing else is said. -/
def folderOf (found : Found) : Except Stop FolderPath := do
  return (← found.value? folderFlag).getD .topLevel

/-- The command to a server that a command line asks for; none if it names none. -/
def ofFound? (found : Found) : Except Stop (Option Command) := do
  match found.commands with
  | ["folder", "resolve"] =>
    return some (.folder (.resolve (← found.value pathPlace) (found.isOn createSwitch)))
  | ["folder", "create"] =>
    return some (.folder (.create (← found.value pathPlace) (found.isOn cleanSwitch)))
  | ["folder", "delete"] => return some (.folder (.delete (← found.value pathPlace)))
  | ["job", "create"] =>
    return some (.job (.create (← found.value namePlace) (← folderOf found)
      ((← found.value? kindFlag).getD .pipeline) (← found.value? valueFlag)
      (← found.values paramsFlag) (found.isOn createFoldersSwitch)))
  | ["job", "delete"] =>
    return some (.job (.delete (← found.value namePlace) (← folderOf found)))
  | ["build", "run"] =>
    return some (.build (.run (← found.value jobPlace) (← folderOf found)
      (← found.value? branchFlag)))
  | ["build", "abort"] =>
    return some (.build (.abort (← found.value jobPlace) (← folderOf found)))
  | ["build", "last"] =>
    return some (.build (.last (← found.value jobPlace) (← folderOf found)))
  | ["build", "wait"] =>
    return some (.build (.wait (← found.value jobPlace) (← folderOf found)
      ((← found.value? resultFlag).getD .success) (← found.value? timeoutFlag)))
  | _ => return none

end Command

end JobHierarchy.CommandLine
