import JobHierarchy.CommandLine.Argument
/-!
# Grammars of command lines

A command has options and positional arguments, and may have commands below it. Where there are
some, the word `help` asks about them. Commands are told apart by the path of names that leads to
them, from the program's own name on. `Stop` says why a command line leads to nothing to do.
-/

namespace JobHierarchy.CommandLine

structure Grammar where
  name : String
  about : String
  options : List Argument
  positionals : List Argument
  commands : List Grammar
  /-- One of the commands below has to be named. -/
  needsCommand : Bool

/-- Why a command line is not carried out. Arguments stand here as messages name them. -/
inductive Stop where
  | unknownArgument (word : String)
  | unknownCommand (word : String)
  | missingCommand (path : List String)
  | missingArguments (arguments : List String)
  | missingValue (argument : String)
  | refusedValue (value argument : String) (fault : ValueFault)
  | repeated (argument : String)
  | unneededValue (value argument : String)
  /-- Help with a command was asked for. -/
  | help (path : List String)
  /-- Nothing was given where something is needed, so there is help instead. -/
  | helpForNothing (path : List String)
  | version (path : List String)
  deriving DecidableEq, Repr

namespace Grammar

/-- The word that asks about the commands. -/
def helpWord : String := "help"

def option? (g : Grammar) (name : String) : Option Argument :=
  g.options.find? fun a => a.name = name

def shortOption? (g : Grammar) (c : Char) : Option Argument :=
  g.options.find? fun a => a.short = some c

def command? (g : Grammar) (name : String) : Option Grammar :=
  g.commands.find? fun below => below.name = name

def hasCommands (g : Grammar) : Bool := !g.commands.isEmpty

/-- The word is one that can stand where a command is named. -/
def isCommandWord (g : Grammar) (word : String) : Bool :=
  g.hasCommands && (word = helpWord || (g.command? word).isSome)

/-- The command that a path leads to, as far as it leads anywhere. -/
def descend (g : Grammar) : List String → Grammar
  | [] => g
  | name :: rest =>
    match g.command? name with
    | some below => below.descend rest
    | none => g

/-! ## Help -/

/-- Rows of two columns. -/
def columns (rows : List (String × String)) : List String :=
  let width := (rows.map fun row => row.1.length).foldl max 0
  rows.map fun (left, right) => "  " ++ left ++ "".pushn ' ' (width - left.length + 2) ++ right

/-- A titled list of rows, with an empty line in front. -/
def chapter (title : String) (rows : List (String × String)) : List String :=
  if rows = [] then [] else "" :: (title ++ ":") :: columns rows

def optionRow (a : Argument) : String × String :=
  ((match a.short with
    | some c => "-" ++ String.singleton c ++ ", "
    | none => "    ") ++ a.text, a.about)

/-- How a command is written. -/
def usage (g : Grammar) (path : List String) : String :=
  "Usage: " ++ " ".intercalate (path
    ++ (if g.options.isEmpty then [] else ["[OPTIONS]"])
    ++ g.positionals.map Argument.text
    ++ (if g.hasCommands then ["<COMMAND>"] else []))

def help (g : Grammar) (path : List String) : String :=
  let commands := g.commands.map fun below => (below.name, below.about)
  "\n".intercalate ([g.about, "", g.usage path]
    ++ chapter "Commands" (if g.hasCommands then commands ++ [(helpWord, "Print help")] else [])
    ++ chapter "Arguments" (g.positionals.map fun a => (a.text, a.about))
    ++ chapter "Options" (g.options.map optionRow)) ++ "\n"

end Grammar

namespace Stop

/-- Nothing is wrong: an answer was asked for. -/
def isAnswer : Stop → Bool
  | .help _ | .version _ => true
  | _ => false

/-- The wording, for the grammar of a program and the number of its version. -/
def message (g : Grammar) (version : String) : Stop → String
  | .unknownArgument word => "error: unexpected argument '" ++ word ++ "' found\n"
  | .unknownCommand word => "error: unrecognized subcommand '" ++ word ++ "'\n"
  | .missingCommand path =>
    "error: '" ++ " ".intercalate path ++ "' requires a subcommand but one was not provided\n"
  | .missingArguments arguments =>
    "error: the following required arguments were not provided:\n"
      ++ String.join (arguments.map fun a => "  " ++ a ++ "\n")
  | .missingValue argument | .refusedValue _ argument .empty =>
    "error: a value is required for '" ++ argument ++ "' but none was supplied\n"
  | .refusedValue value argument (.refused reason) =>
    "error: invalid value '" ++ value ++ "' for '" ++ argument ++ "': " ++ reason ++ "\n"
  | .refusedValue value argument (.notAllowed allowed) =>
    "error: invalid value '" ++ value ++ "' for '" ++ argument ++ "'\n  [possible values: "
      ++ ", ".intercalate allowed ++ "]\n"
  | .repeated argument => "error: the argument '" ++ argument ++ "' cannot be used multiple times\n"
  | .unneededValue value argument =>
    "error: unexpected value '" ++ value ++ "' for '" ++ argument ++ "' found\n"
  | .help path | .helpForNothing path => (g.descend path.tail).help path
  | .version path => "-".intercalate path ++ " " ++ version ++ "\n"

end Stop

end JobHierarchy.CommandLine
