/-!
# Arguments

What may stand on a command line behind the name of a command. An option is met by its name, a
positional argument by its place. A `Parameter` is an argument together with the meaning of its
values.
-/

namespace JobHierarchy.CommandLine

/-- Why a text is no value of an argument. -/
inductive ValueFault where
  | refused (reason : String)
  | notAllowed (allowed : List String)
  /-- Nothing, where there has to be something. -/
  | empty
  deriving DecidableEq, Repr

/-- What meeting an argument does. -/
inductive Effect where
  /-- It says yes to something. -/
  | switch
  /-- It takes a value, once. -/
  | value
  /-- It takes a value each time. -/
  | values
  /-- It asks for help and for nothing else. -/
  | help
  /-- It asks for the version and for nothing else. -/
  | version
  deriving DecidableEq, Repr

structure Argument where
  /-- The name by which values are found. An option is written with two dashes in front of it. -/
  name : String
  isOption : Bool
  /-- Another name for an option, written with one dash in front of it. -/
  short : Option Char
  effect : Effect
  /-- What a value is called in messages. -/
  placeholder : String
  check : String → Except ValueFault Unit
  /-- It has to be given. -/
  required : Bool
  /-- Another argument that has to be given with this one. -/
  partner : Option String
  /-- The environment variable that gives the value where the line does not. -/
  fallback : Option String
  about : String

namespace Argument

def takesValue (a : Argument) : Bool := a.effect = .value || a.effect = .values

/-- The argument as messages name it. -/
def text (a : Argument) : String :=
  if !a.isOption then "<" ++ a.placeholder ++ ">"
  else if a.takesValue then "--" ++ a.name ++ " <" ++ a.placeholder ++ ">"
  else "--" ++ a.name

def switch (name : String) (short : Option Char) (about : String) : Argument where
  name
  isOption := true
  short
  effect := .switch
  placeholder := ""
  check _ := .ok ()
  required := false
  partner := none
  fallback := none
  about

def help : Argument := { switch "help" (some 'h') "Print help" with effect := .help }

def version : Argument := { switch "version" (some 'V') "Print version" with effect := .version }

end Argument

/-- An argument whose values mean something. -/
structure Parameter (α : Type) where
  argument : Argument
  read : String → Except ValueFault α

namespace Parameter

variable {α : Type}

/-- An option with a value. Values are checked by reading them. -/
def option (name : String) (short : Option Char) (placeholder : String)
    (read : String → Except ValueFault α) (about : String) : Parameter α where
  argument := { Argument.switch name short about with
    effect := .value
    placeholder
    check := fun text => (read text).map fun _ => () }
  read

/-- The same where it may be given several times. -/
def repeatable (p : Parameter α) : Parameter α :=
  { p with argument := { p.argument with effect := .values } }

/-- A positional argument, which has to be given. -/
def positional (name placeholder : String) (read : String → Except ValueFault α)
    (about : String) : Parameter α :=
  let p := option name none placeholder read about
  { p with argument := { p.argument with isOption := false, required := true } }

end Parameter

end JobHierarchy.CommandLine
