import JobHierarchy.CommandLine.Grammar
import JobHierarchy.Text.Split
/-!
# Reading command lines

`scan` reads the words of a command line by a grammar. A value is checked when the next argument is
met, or at the end of its command; so of two faults an argument that does not exist is found before
a bad value in front of it. A command below is read to its end before the one above it is judged.
Each command on the way has its own findings, and `Findings.over` says which of them count.
-/

namespace JobHierarchy.CommandLine

/-- Where a value comes from. -/
inductive Source where
  | environment
  | line
  deriving DecidableEq, Repr

/-- What was found for one argument. A switch has no values. -/
structure Finding where
  source : Source
  values : List String
  deriving DecidableEq, Repr

abbrev Findings := List (String × Finding)

/-- What a command line says: the commands that it names, and the arguments. -/
structure Found where
  commands : List String
  findings : Findings
  deriving DecidableEq, Repr

/-- How far the reading of one command is. -/
structure Level where
  findings : Findings
  /-- The argument that was met last, with its value if that was met too. -/
  pending : Option (Argument × Option String)
  /-- The number of positional arguments that were met. -/
  places : Nat
  /-- Only positional arguments follow. -/
  onlyPlaces : Bool

/-- Of two findings for one argument that from the line counts, and of equals the lower one. -/
def Finding.over (above below : Finding) : Finding :=
  if above.source = .line && below.source = .environment then above else below

/-- The findings of a command and of one below it. -/
def Findings.over (above below : Findings) : Findings :=
  (below.map fun (name, f) =>
      match above.lookup name with
      | some g => (name, g.over f)
      | none => (name, f))
    ++ above.filter fun (name, _) => (below.lookup name).isNone

namespace Level

def start : Level := ⟨[], none, 0, false⟩

def has (l : Level) (name : String) : Bool := (l.findings.lookup name).isSome

def put (l : Level) (name : String) (f : Finding) : Level :=
  { l with findings := (name, f) :: l.findings.filter fun e => e.1 != name }

/-- Takes a value after checking it. -/
def take (l : Level) (source : Source) (a : Argument) (value : String) : Except Stop Level :=
  if a.effect = .value && l.has a.name then .error (.repeated a.text)
  else
    match a.check value with
    | .error fault => .error (.refusedValue value a.text fault)
    | .ok () =>
      let before := ((l.findings.lookup a.name).map (·.values)).getD []
      .ok (l.put a.name ⟨source, before ++ [value]⟩)

/-- Takes the value that is pending. -/
def settle (l : Level) : Except Stop Level :=
  match l.pending with
  | none => .ok l
  | some (a, none) => .error (.missingValue a.text)
  | some (a, some value) => { l with pending := none }.take .line a value

/-- Meets an option whose value comes next. -/
def await (l : Level) (a : Argument) : Except Stop Level := do
  return { ← l.settle with pending := some (a, none) }

/-- Meets an option that takes no value. -/
def meet (l : Level) (path : List String) (a : Argument) : Except Stop Level := do
  let l ← l.settle
  match a.effect with
  | .help => throw (.help path)
  | .version => throw (.version path)
  | _ =>
    if l.has a.name then throw (.repeated a.text)
    return l.put a.name ⟨.line, []⟩

/-- Meets an option written with two dashes, and what stands behind an equals sign. -/
def long (l : Level) (g : Grammar) (path : List String) (name : String)
    (attached : Option String) : Except Stop Level :=
  match g.option? name with
  | none => .error (.unknownArgument ("--" ++ name))
  | some a =>
    match a.takesValue, attached with
    | true, some value => do (← l.settle).take .line a value
    | true, none => l.await a
    | false, some value => .error (.unneededValue value a.text)
    | false, none => l.meet path a

/-- Meets options written behind one dash; the first that takes a value takes the rest as it. -/
def shorts (g : Grammar) (path : List String) (l : Level) : List Char → Except Stop Level
  | [] => .ok l
  | c :: rest =>
    match g.shortOption? c with
    | none => .error (.unknownArgument ("-" ++ String.singleton c))
    | some a =>
      if a.takesValue then
        match rest with
        | [] => l.await a
        | '=' :: value => do (← l.settle).take .line a (String.ofList value)
        | value => do (← l.settle).take .line a (String.ofList value)
      else do shorts g path (← l.meet path a) rest

/-- Meets a word in the place of a positional argument. -/
def place (l : Level) (g : Grammar) (word : String) : Except Stop Level :=
  match g.positionals[l.places]? with
  | some a => do return { ← l.settle with pending := some (a, some word), places := l.places + 1 }
  | none =>
    if l.onlyPlaces && g.isCommandWord word then .error (.unknownArgument word)
    else if g.hasCommands && g.positionals.isEmpty then .error (.unknownCommand word)
    else .error (.unknownArgument word)

/-- Meets a word that names no command. -/
def accept (l : Level) (g : Grammar) (path : List String) (word : String) : Except Stop Level :=
  if l.onlyPlaces then l.place g word
  else
    match word.toList with
    | ['-', '-'] => .ok { l with onlyPlaces := true }
    | '-' :: '-' :: rest =>
      match Text.cutAt? ['='] rest with
      | some (name, value) => l.long g path (String.ofList name) (some (String.ofList value))
      | none => l.long g path (String.ofList rest) none
    | '-' :: c :: rest => l.shorts g path (c :: rest)
    | _ =>
      match l.pending with
      | some (a, none) => .ok { l with pending := some (a, some word) }
      | _ => l.place g word

/-- Takes a value from the environment where the line has none. -/
def fallBack (environment : String → Option String) (l : Level) (a : Argument) :
    Except Stop Level :=
  match a.fallback.bind environment with
  | some value => if l.has a.name then .ok l else l.take .environment a value
  | none => .ok l

/-- The arguments that have to be given and are not. -/
def missing (l : Level) (g : Grammar) : List String :=
  let arguments := g.options ++ g.positionals
  let partners := (arguments.filter fun a => l.has a.name).filterMap (·.partner)
  ((arguments.filter fun a => a.required || partners.contains a.name).filter fun a =>
    !l.has a.name).map Argument.text

/-- The end of a command, with what was found for the command below it, if one was named. -/
def finish (environment : String → Option String) (g : Grammar) (path : List String) (l : Level)
    (below : Option Found) : Except Stop Found := do
  let l ← l.settle
  let l ← g.options.foldlM (fallBack environment) l
  if below.isNone && g.needsCommand then
    throw (if l.findings.isEmpty then .helpForNothing path else .missingCommand path)
  let missing := l.missing g
  if !missing.isEmpty then throw (.missingArguments missing)
  match below with
  | some found => return { found with findings := Findings.over l.findings found.findings }
  | none => return ⟨path.tail, l.findings⟩

/-- A command can be named now. -/
def awaitsCommand (l : Level) : Bool :=
  !l.onlyPlaces && match l.pending with
    | some (_, none) => false
    | _ => true

end Level

/-- The help that the words behind `help` ask for. -/
def helpWith (g : Grammar) (path : List String) : List String → Stop
  | [] => .help path
  | word :: rest =>
    match g.command? word with
    | some below => helpWith below (path ++ [word]) rest
    | none =>
      if g.isCommandWord word && rest.isEmpty then .help path
      else .unknownCommand ((rest.head?).getD word)

/-- Reads the words behind the name of the command that `path` leads to. -/
def scan (environment : String → Option String) (g : Grammar) (path : List String) (l : Level) :
    List String → Except Stop Found
  | [] => l.finish environment g path none
  | word :: rest =>
    if l.awaitsCommand && g.isCommandWord word then
      match g.command? word with
      | some below => do
        let found ← scan environment below (path ++ [word]) .start rest
        l.finish environment g path (some found)
      | none => .error (helpWith g path rest)
    else do scan environment g path (← l.accept g path word) rest

/-- Reads the words behind the name of the program. -/
def Grammar.read (g : Grammar) (environment : String → Option String) (words : List String) :
    Except Stop Found :=
  scan environment g [g.name] .start words

namespace Found

variable {α : Type}

def isOn (found : Found) (a : Argument) : Bool := (found.findings.lookup a.name).isSome

def values (found : Found) (p : Parameter α) : Except Stop (List α) :=
  (((found.findings.lookup p.argument.name).map (·.values)).getD []).mapM fun text =>
    (p.read text).mapError fun fault => .refusedValue text p.argument.text fault

/-- The value of a parameter, if it has one. -/
def value? (found : Found) (p : Parameter α) : Except Stop (Option α) := do
  return (← found.values p).getLast?

/-- The value of a parameter that has to be given. -/
def value (found : Found) (p : Parameter α) : Except Stop α := do
  match ← found.value? p with
  | some a => return a
  | none => throw (.missingArguments [p.argument.text])

end Found

end JobHierarchy.CommandLine
