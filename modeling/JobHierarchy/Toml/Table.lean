import JobHierarchy.Json.Value
/-!
# TOML tables

A table grows while a document is read: by headers, by dotted keys, and by items of arrays of
tables. How a table came about decides what may still be added to it, so that every key is given
once and every table is defined in one place.
-/

namespace JobHierarchy.Toml

/-- How a table came about. -/
inductive Origin where
  /-- By a header of its own, or as the document itself. -/
  | defined
  /-- By the header of a table in it. -/
  | implied
  /-- By a dotted key. -/
  | dotted
  deriving DecidableEq, Repr

inductive Entry where
  /-- A value, an inline table among them, to which nothing can be added. -/
  | value (v : Json)
  | table (origin : Origin) (entries : List (String × Entry))
  | tables (items : List (List (String × Entry)))
  deriving Repr

/-- The entries of a table in order. -/
abbrev Entries := List (String × Entry)

namespace Entries

def set (entries : Entries) (key : String) (entry : Entry) : Entries :=
  if (entries.lookup key).isSome then
    entries.map fun e => if e.1 == key then (key, entry) else e
  else entries ++ [(key, entry)]

/-- Changes the table that a path leads to from a table. Tables that are missing on the way come
about as `missing`. Through an array of tables the way leads to its last table. A table on the way
is refused unless one of its origin may grow in this fashion. -/
def change (missing : Origin) (mayGrow : Origin → Bool)
    (f : Origin → Entries → Option Entries) :
    (path : List String) → Origin → Entries → Option Entries
  | [], origin, entries => f origin entries
  | key :: path, _, entries => do
    match entries.lookup key with
    | none =>
      return entries.set key (.table missing (← change missing mayGrow f path missing []))
    | some (.table origin inner) =>
      if mayGrow origin then
        return entries.set key (.table origin (← change missing mayGrow f path origin inner))
      else none
    | some (.tables items) =>
      match items.getLast? with
      | some last =>
        let last ← change missing mayGrow f path .defined last
        return entries.set key (.tables (items.dropLast ++ [last]))
      | none => none
    | some (.value _) => none

/-- Adds a value under a dotted key. A table that has a header of its own is out of reach of dotted
keys. -/
def addValue (entries : Entries) (path : List String) (key : String) (v : Json) :
    Option Entries :=
  change .dotted (· ≠ .defined)
    (fun origin inner =>
      if (origin == .dotted) == path.isEmpty then none
      else if (inner.lookup key).isSome then none
      else some (inner ++ [(key, .value v)]))
    path .defined entries

/-- Opens the table of a header in its parent: takes out what other headers have put into it. -/
def openTable (entries : Entries) (path : List String) (key : String) :
    Option (Entries × Entries) := do
  let mut found : Entries := []
  let parent ← parentOf path .defined entries
  match parent.lookup key with
  | none => pure ()
  | some (.table .implied inner) => found := inner
  | some _ => none
  let rest ← change .implied (fun _ => true)
    (fun _ inner => some (inner.filter (·.1 != key))) path .defined entries
  return (rest, found)
where
  /-- The entries that a path leads to; none where it leads nowhere yet. -/
  parentOf : List String → Origin → Entries → Option Entries
    | [], _, entries => some entries
    | key :: path, _, entries =>
      match entries.lookup key with
      | none => some []
      | some (.table origin inner) => parentOf path origin inner
      | some (.tables items) => items.getLast?.bind (parentOf path .defined)
      | some (.value _) => none

/-- Puts a finished table into its parent. -/
def closeTable (entries : Entries) (path : List String) (key : String) (table : Entries) :
    Option Entries :=
  change .implied (fun _ => true)
    (fun _ inner =>
      match inner.lookup key with
      | none => some (inner ++ [(key, .table .defined table)])
      | some _ => none)
    path .defined entries

/-- Makes sure that there is an array of tables. -/
def openArray (entries : Entries) (path : List String) (key : String) : Option Entries :=
  change .implied (fun _ => true)
    (fun _ inner =>
      match inner.lookup key with
      | none => some (inner ++ [(key, .tables [])])
      | some (.tables _) => some inner
      | some _ => none)
    path .defined entries

/-- Puts a finished table at the end of an array of tables. -/
def closeArray (entries : Entries) (path : List String) (key : String) (table : Entries) :
    Option Entries :=
  change .implied (fun _ => true)
    (fun _ inner =>
      match inner.lookup key with
      | some (.tables items) => some (inner.set key (.tables (items ++ [table])))
      | _ => none)
    path .defined entries

end Entries

mutual

/-- The entry as a value. -/
def Entry.toJson : Entry → Json
  | .value v => v
  | .table _ entries => .object (membersOf entries)
  | .tables items => .array (objectsOf items)

def membersOf : List (String × Entry) → List (String × Json)
  | [] => []
  | (key, entry) :: rest => (key, entry.toJson) :: membersOf rest

def objectsOf : List (List (String × Entry)) → List Json
  | [] => []
  | item :: rest => .object (membersOf item) :: objectsOf rest

end

end JobHierarchy.Toml
