import JobHierarchy.Error
import JobHierarchy.Yaml.Meaning
/-!
# From YAML nodes to records

A record is read from a mapping by the names of its fields, or from a sequence by their order. Where
nothing is written there is an empty mapping or sequence. A string is the text of any scalar. Nodes
are read in the order of the text, so that of two faults the first counts, also where one of them
is that the text is not well formed.
-/

namespace JobHierarchy.Yaml.Decode

abbrev Decoded := Except DocumentFault

def wrongType {α : Type} : Decoded α := .error none

/-- Nothing is written here. -/
def isEmpty : Node → Bool
  | .scalar _ .plain "" => true
  | _ => false

def string : Node → Decoded String
  | .scalar _ _ s => .ok s
  | _ => wrongType

/-- Quotes make a string of a truth value; a literal block does not where its tag says so. -/
def bool : Node → Decoded Bool
  | .scalar tag style s =>
    if style = .plain || (style = .literal && tag = some (standardTag "bool")) then
      match bool? s with
      | some b => .ok b
      | none => wrongType
    else wrongType
  | _ => wrongType

mutual

/-- Passes over a node that nobody asks for; a fault in it counts all the same. -/
def skip : Node → Decoded Unit
  | .broken => wrongType
  | .sequence _ items => skipItems items
  | .mapping _ entries => skipEntries entries
  | .scalar .. | .endless => .ok ()

def skipItems : List Node → Decoded Unit
  | [] => .ok ()
  | item :: rest => do skip item; skipItems rest

def skipEntries : List (Node × Node) → Decoded Unit
  | [] => .ok ()
  | (key, value) :: rest => do skip key; skip value; skipEntries rest

end

def list {α : Type} (read : Node → Decoded α) : Node → Decoded (List α)
  | .sequence _ items => items.mapM read
  | node => if isEmpty node then .ok [] else wrongType

/-- The pairs of a mapping of strings in order. -/
def strings : Node → Decoded (List (String × String))
  | .mapping _ entries => entries.mapM fun (key, value) => do
    return (← string key, ← string value)
  | node => if isEmpty node then .ok [] else wrongType

/-- A word for a variant, or the word as the tag of a node that is nothing. -/
def variant {α : Type} (judge : String → Except Detail α) : Node → Decoded α
  | .scalar tag style s => do
    match tag.bind fun t => Text.after? ['!'] t.toList with
    | some (c :: cs) =>
      let a ← (judge (String.ofList (c :: cs))).mapError some
      if style = .plain && plainMeaning s = .null then return a else wrongType
    | _ => (judge s).mapError some
  | _ => wrongType

/-- A text that `judge` accepts. -/
def judged {α : Type} (judge : String → Except Detail α) (node : Node) : Decoded α := do
  (judge (← string node)).mapError some

/-! ## Records -/

def readEntries {σ : Type} (names : List String) (read : σ → Nat → Node → Decoded σ) :
    List (Node × Node) → (seen : List Nat) → σ → Decoded σ
  | [], _, acc => .ok acc
  | (key, value) :: rest, seen, acc => do
    match names.idxOf? (← string key) with
    | none =>
      skip value
      readEntries names read rest seen acc
    | some i =>
      if seen.contains i then throw (some (.duplicateField (names.getD i "")))
      else readEntries names read rest (i :: seen) (← read acc i value)

def readItems {σ : Type} (count : Nat) (read : σ → Nat → Node → Decoded σ) :
    List Node → (position : Nat) → σ → Decoded σ
  | [], _, acc => .ok acc
  | item :: rest, i, acc =>
    if i < count then do readItems count read rest (i + 1) (← read acc i item)
    else wrongType

/-- The record and whether its fields stood by name. -/
def fields {σ : Type} (names : List String) (start : σ) (read : σ → Nat → Node → Decoded σ) :
    Node → Decoded (σ × Bool)
  | .mapping _ entries => (readEntries names read entries [] start).map (·, true)
  | .sequence _ items => (readItems names.length read items 0 start).map (·, false)
  | node => if isEmpty node then .ok (start, true) else wrongType

/-- The value of a field that has to be there. -/
def required {α : Type} (byName : Bool) (name : String) : Option α → Decoded α
  | some a => .ok a
  | none => if byName then .error (some (.missingField name)) else wrongType

end JobHierarchy.Yaml.Decode
