import JobHierarchy.Error
import JobHierarchy.Json.Reader
/-!
# From values to records

A record is read from an object by the names of its fields, or from an array by their order. Fields
are read in the order in which they stand, so of two faults the first counts; names that are no
field are passed over; that a field is missing shows only at the end.

`scalarText` and `variantText` read a text that holds nothing but a string or the name of a variant,
and judge the string before they look at what follows it.
-/

namespace JobHierarchy.Json.Decode

abbrev Decoded := Except DocumentFault

/-- The value has another type than expected. -/
def wrongType {α : Type} : Decoded α := .error none

def string : Json → Decoded String
  | .string s => .ok s
  | _ => wrongType

def bool : Json → Decoded Bool
  | .bool b => .ok b
  | _ => wrongType

/-- A whole number below 2^64. -/
def natural : Json → Decoded Nat
  | .number (.natural n) => .ok n
  | _ => wrongType

def optional {α : Type} (read : Json → Decoded α) : Json → Decoded (Option α)
  | .null => .ok none
  | v => (read v).map some

def list {α : Type} (read : Json → Decoded α) : Json → Decoded (List α)
  | .array items => items.mapM read
  | _ => wrongType

/-- The name of a variant, or an object that has it as its only name, where it names nothing. -/
def variant {α : Type} (judge : String → Except Detail α) : Json → Decoded α
  | .string s => (judge s).mapError some
  | .object [(s, v)] => do
    let a ← (judge s).mapError some
    match v with
    | .null => return a
    | _ => wrongType
  | _ => wrongType

/-- Reads the members whose name is a field, by the position of the field. -/
def readMembers {σ : Type} (names : List String) (read : σ → Nat → Json → Decoded σ) :
    List (String × Json) → (seen : List Nat) → σ → Decoded σ
  | [], _, acc => .ok acc
  | (name, value) :: rest, seen, acc =>
    match names.idxOf? name with
    | none => readMembers names read rest seen acc
    | some i =>
      if seen.contains i then .error (some (.duplicateField name))
      else do readMembers names read rest (i :: seen) (← read acc i value)

/-- Reads the items as the fields in order. Items beyond the last field are refused where
`exact`. -/
def readItems {σ : Type} (count : Nat) (exact : Bool) (read : σ → Nat → Json → Decoded σ) :
    List Json → (position : Nat) → σ → Decoded σ
  | [], _, acc => .ok acc
  | value :: rest, i, acc =>
    if i < count then do readItems count exact read rest (i + 1) (← read acc i value)
    else if exact then wrongType
    else .ok acc

/-- Whether a record was given by names or by position. -/
inductive Form where
  | byName
  | byPosition
  deriving DecidableEq, Repr

def fields {σ : Type} (names : List String) (exact : Bool) (start : σ)
    (read : σ → Nat → Json → Decoded σ) : Json → Decoded (σ × Form)
  | .object members => (readMembers names read members [] start).map (·, .byName)
  | .array items => (readItems names.length exact read items 0 start).map (·, .byPosition)
  | _ => wrongType

/-- The value of a field that has to be there. In an array, the array is too short. -/
def required {α : Type} (form : Form) (name : String) : Option α → Decoded α
  | some a => .ok a
  | none => match form with
    | .byName => .error (some (.missingField name))
    | .byPosition => wrongType

/-! ## Texts that hold one word -/

def atEnd {α : Type} (a : α) (rest : List Char) : Decoded α :=
  if (skipSpace rest).isEmpty then .ok a else .error none

/-- A text that holds a string, which `judge` accepts. -/
def scalarText {α : Type} (judge : String → Except Detail α) (text : String) : Decoded α :=
  match skipSpace text.toList with
  | '\x22' :: rest =>
    match readString? (rest.length + 1) rest [] with
    | none => .error none
    | some (s, rest) =>
      match judge s with
      | .error d => .error (some d)
      | .ok a => atEnd a rest
  | _ => .error none

/-- A text that holds the name of a variant, as a string or as the only name in an object, where
it names nothing. -/
def variantText {α : Type} (judge : String → Except Detail α) (text : String) : Decoded α :=
  match skipSpace text.toList with
  | '\x7b' :: rest =>
    match skipSpace rest with
    | '\x22' :: rest =>
      match readString? (rest.length + 1) rest [] with
      | none => .error none
      | some (s, rest) =>
        match judge s with
        | .error d => .error (some d)
        | .ok a =>
          match skipSpace rest with
          | ':' :: rest =>
            match afterWord? "null" (skipSpace rest) with
            | some rest =>
              match skipSpace rest with
              | '\x7d' :: rest => atEnd a rest
              | _ => .error none
            | none => .error none
          | _ => .error none
    | _ => .error none
  | _ => scalarText judge text

end JobHierarchy.Json.Decode
