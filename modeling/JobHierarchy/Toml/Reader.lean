import JobHierarchy.Toml.Scalar
import JobHierarchy.Toml.Table
/-!
# Reading TOML

A document of TOML 1.0 as a value: tables become objects whose members stand in the order in which
they came about. Values and keys nest less than eighty deep.
-/

namespace JobHierarchy.Toml

/-- Nesting from here on is refused. -/
def maxDepth : Nat := 80

def isKeyChar (c : Char) : Bool :=
  c.isAlpha || Json.isDigit c || c = '_' || c = '-'

/-- One part of a key. -/
def readKeyPart? (cs : List Char) : Option (String × List Char) :=
  match cs with
  | '\x22' :: rest => readLineString? '\x22' (rest.length + 1) rest []
  | '\'' :: rest => readLineString? '\'' (rest.length + 1) rest []
  | _ =>
    match cs.takeWhile isKeyChar with
    | [] => none
    | part => some (String.ofList part, cs.dropWhile isKeyChar)

/-- The parts of a dotted key, with blanks around each. -/
def readKey? : (fuel : Nat) → List Char → Option (List String × List Char)
  | 0, _ => none
  | fuel + 1, cs => do
    let (part, rest) ← readKeyPart? (skipBlanks cs)
    match skipBlanks rest with
    | '.' :: rest => do
      let (parts, rest) ← readKey? fuel rest
      return (part :: parts, rest)
    | rest => return ([part], rest)

/-- What follows a comment, if there is one here. -/
def skipComment? : List Char → Option (List Char)
  | '#' :: rest =>
    let rest := rest.dropWhile isText
    match rest with
    | [] => some []
    | _ => (afterBreak? rest).map fun _ => rest
  | cs => some cs

/-- What follows blanks, line breaks and comments. -/
def skipFiller? : (fuel : Nat) → List Char → Option (List Char)
  | 0, cs => some cs
  | fuel + 1, cs =>
    match skipBreaks cs with
    | '#' :: rest => do skipFiller? fuel (← skipComment? ('#' :: rest))
    | rest => some rest

mutual

/-- A value; `depth` levels are open around it. -/
def readValue? : (fuel depth : Nat) → List Char → Option (Json × List Char)
  | 0, _, _ => none
  | fuel + 1, depth, cs =>
    match cs with
    | '[' :: rest =>
      if depth + 1 < maxDepth then
        (readItems? fuel (depth + 1) rest []).map fun (items, rest) => (.array items, rest)
      else none
    | '\x7b' :: rest =>
      if depth + 1 < maxDepth then
        match skipBlanks rest with
        | '\x7d' :: rest => some (.object [], rest)
        | rest =>
          (readPairs? fuel (depth + 1) rest []).map fun (entries, rest) =>
            (.object (membersOf entries), rest)
      else none
    | _ => readScalar? cs

/-- The items of an array up to its end. A comma may stand behind the last one. -/
def readItems? : (fuel depth : Nat) → List Char → (done : List Json) →
    Option (List Json × List Char)
  | 0, _, _, _ => none
  | fuel + 1, depth, cs, done => do
    match ← skipFiller? (cs.length + 1) cs with
    | ']' :: rest => return (done.reverse, rest)
    | rest =>
      let (item, rest) ← readValue? fuel depth rest
      match ← skipFiller? (rest.length + 1) rest with
      | ',' :: rest => readItems? fuel depth rest (item :: done)
      | ']' :: rest => return ((item :: done).reverse, rest)
      | _ => none

/-- The pairs of an inline table up to its end. -/
def readPairs? : (fuel depth : Nat) → List Char → Entries → Option (Entries × List Char)
  | 0, _, _, _ => none
  | fuel + 1, depth, cs, entries => do
    let (path, rest) ← readKey? (cs.length + 1) cs
    if maxDepth ≤ path.length then none
    let rest ← Text.after? ['='] rest
    let (value, rest) ← readValue? fuel depth (skipBlanks rest)
    let entries ← entries.addValue path.dropLast (path.getLast?.getD "") value
    match skipBlanks rest with
    | ',' :: rest => readPairs? fuel depth rest entries
    | '\x7d' :: rest => return (entries, rest)
    | _ => none

end

/-- The part of a document after a header: where it belongs, and its table so far. -/
inductive Section where
  | document
  | table (path : List String) (key : String)
  | item (path : List String) (key : String)
  deriving Repr

/-- A document while it is read. -/
structure Draft where
  whole : Entries
  current : Section
  table : Entries

namespace Draft

def start : Draft := ⟨[], .document, []⟩

/-- The document with the current section put where it belongs. -/
def close (d : Draft) : Option Entries :=
  match d.current with
  | .document => some d.table
  | .table path key => d.whole.closeTable path key d.table
  | .item path key => d.whole.closeArray path key d.table

def openTable (d : Draft) (keys : List String) : Option Draft := do
  let path := keys.dropLast
  let key := keys.getLast?.getD ""
  let (whole, table) ← (← d.close).openTable path key
  return ⟨whole, .table path key, table⟩

def openItem (d : Draft) (keys : List String) : Option Draft := do
  let path := keys.dropLast
  let key := keys.getLast?.getD ""
  return ⟨← (← d.close).openArray path key, .item path key, []⟩

def addValue (d : Draft) (keys : List String) (v : Json) : Option Draft := do
  return { d with table := ← d.table.addValue keys.dropLast (keys.getLast?.getD "") v }

end Draft

/-- What follows the end of a line: blanks, perhaps a comment, and the line break. -/
def endOfLine? (cs : List Char) : Option (List Char) := do
  match ← skipComment? (skipBlanks cs) with
  | [] => return []
  | rest => afterBreak? rest

/-- A header or a pair, up to the end of its line. -/
def readLine? (d : Draft) (cs : List Char) : Option (Draft × List Char) := do
  let keyOf (cs : List Char) : Option (List String × List Char) := do
    let (keys, rest) ← readKey? (cs.length + 1) cs
    if maxDepth ≤ keys.length then none
    return (keys, rest)
  match cs with
  | '[' :: '[' :: rest =>
    let (keys, rest) ← keyOf rest
    let rest ← endOfLine? (← Text.after? [']', ']'] rest)
    return (← d.openItem keys, rest)
  | '[' :: rest =>
    let (keys, rest) ← keyOf rest
    let rest ← endOfLine? (← Text.after? [']'] rest)
    return (← d.openTable keys, rest)
  | _ =>
    let (keys, rest) ← keyOf cs
    let rest ← Text.after? ['='] rest
    let (value, rest) ← readValue? (2 * rest.length + 2) 0 (skipBlanks rest)
    return (← d.addValue keys value, ← endOfLine? rest)

/-- The lines of a document. -/
def readLines? : (fuel : Nat) → Draft → List Char → Option Draft
  | 0, _, _ => none
  | fuel + 1, d, cs => do
    match ← skipFiller? (cs.length + 1) cs with
    | [] => return d
    | rest =>
      let (d, rest) ← readLine? d rest
      readLines? fuel d rest

/-- The value of a document. A byte order mark in front does not count. -/
def parse? (text : String) : Option Json := do
  let cs := match text.toList with
    | '\uFEFF' :: rest => rest
    | cs => cs
  let d ← readLines? (cs.length + 1) .start cs
  return .object (membersOf (← d.close))

end JobHierarchy.Toml
