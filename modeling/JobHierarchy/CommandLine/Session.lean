import JobHierarchy.CommandLine.Perform
import JobHierarchy.Http.Server
import JobHierarchy.Time.Duration
/-!
# One run of the program

From the words of a command line to what is printed and the code that the program ends with. Of the
world outside the files, the environment, a network and a clock are asked for.
-/

namespace JobHierarchy.CommandLine

/-- The version of the program. -/
def versionNumber : String := "0.1.0"

inductive Task where
  | command (c : Command)
  /-- Shows the settings in force. -/
  | config
  | version
  deriving DecidableEq, Repr

/-- What a command line asks for. -/
structure Invocation where
  flags : ConnectionFlags
  format : Output.Format
  verbose : Bool
  task : Task
  deriving DecidableEq, Repr

/-- How a run ends. -/
structure Ending where
  exitCode : UInt8
  output : String
  errors : String
  deriving DecidableEq, Repr

/-- The world outside. -/
structure Surroundings (m : Type → Type) extends Waiting m where
  files : FileView
  environment : Environment
  /-- The network, for a bound on the time of a request in milliseconds. -/
  exchange : (timeout : Nat) → Http.Exchange m
  coloured : Bool

namespace Invocation

def verboseSwitch : Argument := .switch "verbose" (some 'v') "Enable verbose output"

/-- The options that can be given to every command. -/
def sharedOptions : List Argument :=
  ConnectionFlags.options ++ [formatFlag.argument, verboseSwitch, .help, .version]

def grammar : Grammar where
  name := "jobtree"
  about := "jobtree - keep Jenkins folder/job hierarchies in shape"
  options := sharedOptions
  positionals := []
  commands := Command.grammars sharedOptions ++ [
    leaf sharedOptions "config" "Show the effective server settings" [] [],
    leaf sharedOptions "version" "Show version information" [] []]
  needsCommand := true

def ofFound (found : Found) : Except Stop Invocation := do
  let task ← match ← Command.ofFound? found with
    | some c => pure (Task.command c)
    | none => pure (if found.commands = ["version"] then Task.version else Task.config)
  return {
    flags := ← ConnectionFlags.ofFound found
    format := (← found.value? formatFlag).getD .table
    verbose := found.isOn verboseSwitch
    task }

/-- Reads the words behind the name of the program. -/
def read (env : Environment) (words : List String) : Except Stop Invocation :=
  grammar.read env.get? words >>= ofFound

end Invocation

/-- The settings as `config` shows them. -/
def showSettings (s : Settings) : String :=
  "URL:           " ++ s.normalizedBaseUrl ++ "\n"
    ++ "User:          " ++ ((s.credentials.map (·.username)).getD "(anonymous)") ++ "\n"
    ++ "Poll interval: " ++ Time.durationText s.pollInterval ++ "\n"
    ++ "Wait timeout:  " ++ Time.durationText s.waitTimeout ++ "\n"

def showVersion : String :=
  "jobtree CLI v" ++ versionNumber ++ "\n" ++ "Core library v" ++ versionNumber ++ "\n"

section

variable {m : Type → Type} [Monad m]

/-- Carries out a command to the server that the flags describe. -/
def talk (around : Surroundings m) (i : Invocation) (command : Command) :
    m (Except Failure String) :=
  match i.flags.settings around.files around.environment with
  | .error failure => return .error failure
  | .ok s => do
    around.report (ConnectionFlags.connecting s)
    match i.flags.connection around.files s with
    | .error failure => return .error failure
    | .ok connection =>
      let server := connection.server
      let handler := Http.handler (around.exchange s.requestTimeout) around.toWaiting
        ⟨server.baseUrl, server.credentials⟩
      Program.run handler (command.perform ⟨i.format, around.coloured⟩ connection).run

/-- What an invocation comes to: a text to print, or a failure. -/
def Invocation.carryOut (around : Surroundings m) (i : Invocation) : m (Except Failure String) :=
  match i.task with
  | .command c => talk around i c
  | .config =>
    return (i.flags.settings around.files around.environment).map showSettings
  | .version => return .ok showVersion

def Ending.ofResult : Except Failure String → Ending
  | .ok text => ⟨0, text, ""⟩
  | .error f => ⟨1, "", failureLine f.message⟩

/-- Answers that were asked for are printed; what is wrong with a command line goes to the errors. -/
def Ending.ofStop (stop : Stop) : Ending :=
  let text := stop.message Invocation.grammar versionNumber
  if stop.isAnswer then ⟨0, text, ""⟩ else ⟨2, "", text⟩

/-- A whole run. -/
def session (around : Surroundings m) (words : List String) : m Ending :=
  match Invocation.read around.environment words with
  | .error stop => return .ofStop stop
  | .ok i => return .ofResult (← i.carryOut around)

end

end JobHierarchy.CommandLine
