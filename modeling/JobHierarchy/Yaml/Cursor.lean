/-!
# A place in a YAML text

A `Cursor` is what is still to be read, with the line and the column of the next character. The
classes of characters that decide where tokens end are defined here.
-/

namespace JobHierarchy.Yaml

/-- Characters that end a line. -/
def isBreak (c : Char) : Bool :=
  c = '\n' || c = '\r' || c.toNat = 0x85 || c.toNat = 0x2028 || c.toNat = 0x2029

/-- White space within a line. -/
def isBlank (c : Char) : Bool := c = ' ' || c = '\t'

/-- Characters of anchors, tag handles and directive names. -/
def isWord (c : Char) : Bool := c.isAlphanum || c = '_' || c = '-'

/-- Characters that may stand in a text at all. -/
def isAllowed (c : Char) : Bool :=
  let n := c.toNat
  n = 0x09 || n = 0x0A || n = 0x0D || (0x20 ≤ n && n ≤ 0x7E) || n = 0x85
    || (0xA0 ≤ n && n ≤ 0xD7FF) || (0xE000 ≤ n && n ≤ 0xFFFD && n ≠ 0xFEFF) || 0x10000 ≤ n

structure Cursor where
  rest : List Char
  /-- Characters read so far. -/
  index : Nat
  line : Nat
  column : Nat
  deriving DecidableEq, Repr

namespace Cursor

def start (cs : List Char) : Cursor := ⟨cs, 0, 0, 0⟩

/-- The character `n` places ahead. -/
def ahead? (c : Cursor) (n : Nat) : Option Char := c.rest[n]?

def next? (c : Cursor) : Option Char := c.rest.head?

/-- Whether the character `n` places ahead is blank, a line break or the end. -/
def endsAt (c : Cursor) (n : Nat) : Bool :=
  match c.ahead? n with
  | none => true
  | some ch => isBlank ch || isBreak ch

/-- Passes `n` characters on one line. -/
def skip (c : Cursor) (n : Nat) : Cursor :=
  ⟨c.rest.drop n, c.index + n, c.line, c.column + n⟩

/-- Passes the characters of a class on one line. -/
def skipWhile (c : Cursor) (p : Char → Bool) : Cursor :=
  c.skip (c.rest.takeWhile p).length

/-- The line break here, as it counts in a scalar, and what follows. -/
def lineBreak? (c : Cursor) : Option (Char × Cursor) :=
  match c.rest with
  | '\r' :: '\n' :: rest => some ('\n', ⟨rest, c.index + 2, c.line + 1, 0⟩)
  | ch :: rest =>
    if isBreak ch then
      let shown := if ch.toNat = 0x2028 || ch.toNat = 0x2029 then ch else '\n'
      some (shown, ⟨rest, c.index + 1, c.line + 1, 0⟩)
    else none
  | [] => none

/-- Passes a line break, if there is one here. -/
def skipBreak (c : Cursor) : Cursor :=
  match c.lineBreak? with
  | some (_, c) => c
  | none => c

/-- A line begins here with three dashes or three dots that stand alone. -/
def atMarker (c : Cursor) (mark : Char) : Bool :=
  c.column = 0 && c.rest.take 3 = [mark, mark, mark] && c.endsAt 3

def atDocumentEdge (c : Cursor) : Bool := c.atMarker '-' || c.atMarker '.'

end Cursor

end JobHierarchy.Yaml
