/-!
# JSON values

A value as it stands in a text: an object keeps its members in order and keeps repeated names, and
a number keeps its digits. `Json.sorted` is the value as a table, where the last of several members
of one name counts.
-/

namespace JobHierarchy

/-- A number by how it is written. -/
inductive JsonNumber where
  /-- A whole number below 2^64 without a sign. -/
  | natural (n : Nat)
  /-- A whole number from -2^63 to -1, by its absolute value. -/
  | negative (n : Nat)
  /-- Any other number, by its text. -/
  | decimal (text : String)
  deriving DecidableEq, Repr

inductive Json where
  | null
  | bool (b : Bool)
  | number (n : JsonNumber)
  | string (s : String)
  | array (items : List Json)
  | object (members : List (String × Json))
  deriving Repr, Inhabited

namespace Json

def nat (n : Nat) : Json := .number (.natural n)

def strings (items : List String) : Json := .array (items.map .string)

/-- The member of a name; the last of several. -/
def get? (name : String) : Json → Option Json
  | .object members => members.reverse.lookup name
  | _ => none

/-- Members in ascending order of their names, the last of several of one name. -/
def sortMembers (members : List (String × Json)) : List (String × Json) :=
  let latest := members.foldl (fun acc m => (acc.filter fun a => a.1 != m.1) ++ [m]) []
  latest.mergeSort fun a b => !(decide (b.1 < a.1))

mutual

/-- The value with the members of each object sorted. -/
def sorted : Json → Json
  | .array items => .array (sortedItems items)
  | .object members => .object (sortMembers (sortedMembers members))
  | .null => .null
  | .bool b => .bool b
  | .number n => .number n
  | .string s => .string s

def sortedItems : List Json → List Json
  | [] => []
  | item :: rest => item.sorted :: sortedItems rest

def sortedMembers : List (String × Json) → List (String × Json)
  | [] => []
  | (name, value) :: rest => (name, value.sorted) :: sortedMembers rest

end

end Json

end JobHierarchy
