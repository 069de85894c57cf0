import JobHierarchy.Json.Reader
import JobHierarchy.Text.Blank
import JobHierarchy.Time.Calendar
/-!
# Moments

A moment is a day, a second of that day and a part of that second, in Coordinated Universal Time. A
leap second shows as a part that is a whole second or more. `Moment.parse?` reads the form
`2024-01-02T03:04:05.678+01:00`, leniently about white space and digits left out, and
`Moment.display` writes it in one way.
-/

namespace JobHierarchy

structure Moment where
  /-- Days since 1970-01-01. -/
  day : Int
  /-- Seconds since midnight. -/
  second : Nat
  /-- Billionths of a second. -/
  nanos : Nat
  deriving DecidableEq, Repr

namespace Moment

/-! ## Writing -/

/-- A number with zeros in front, up to a width. -/
def padded (width n : Nat) : String :=
  let digits := toString n
  "".pushn '0' (width - digits.length) ++ digits

/-- Years of four digits stand without a sign. -/
def yearText (year : Int) : String :=
  if 0 ≤ year && year ≤ 9999 then padded 4 year.toNat
  else (if year < 0 then "-" else "+") ++ padded 4 year.natAbs

/-- A fraction of a second in three, six or nine digits, as many as it needs. -/
def fractionText (nanos : Nat) : String :=
  if nanos = 0 then ""
  else if nanos % 1000000 = 0 then "." ++ padded 3 (nanos / 1000000)
  else if nanos % 1000 = 0 then "." ++ padded 6 (nanos / 1000)
  else "." ++ padded 9 nanos

def display (m : Moment) : String :=
  let (year, month, day) := Calendar.ofDays m.day
  yearText year ++ "-" ++ padded 2 month ++ "-" ++ padded 2 day ++ "T"
    ++ padded 2 (m.second / 3600) ++ ":" ++ padded 2 (m.second / 60 % 60) ++ ":"
    ++ padded 2 (m.second % 60 + m.nanos / 1000000000)
    ++ fractionText (m.nanos % 1000000000) ++ "Z"

/-! ## Reading -/

def skipBlanks (cs : List Char) : List Char := cs.dropWhile Text.isBlank

/-- A number of one to `most` digits. -/
def readNumber? (most : Nat) (cs : List Char) : Option (Nat × List Char) :=
  match (cs.take most).takeWhile Json.isDigit with
  | [] => none
  | ds => some (Json.valueOf ds, cs.drop ds.length)

/-- A number after white space, of at most two digits and at most `limit`. -/
def readPart? (limit : Nat) (cs : List Char) : Option (Nat × List Char) := do
  let (n, rest) ← readNumber? 2 (skipBlanks cs)
  if n ≤ limit then some (n, rest) else none

/-- What follows a mark, with white space in front of it. -/
def afterMark? (mark : Char) (cs : List Char) : Option (List Char) :=
  Text.after? [mark] (skipBlanks cs)

/-- A year of at most four digits, or of any number of digits with a sign. -/
def readYear? (cs : List Char) : Option (Int × List Char) :=
  match skipBlanks cs with
  | '-' :: rest => (readNumber? rest.length rest).map fun (n, rest) => (-(n : Int), rest)
  | '+' :: rest => (readNumber? rest.length rest).map fun (n, rest) => ((n : Int), rest)
  | cs => (readNumber? 4 cs).map fun (n, rest) => ((n : Int), rest)

/-- The first nine digits of a fraction, as billionths. -/
def readFraction? (cs : List Char) : Option (Nat × List Char) :=
  match cs with
  | '.' :: rest =>
    match rest.takeWhile Json.isDigit with
    | [] => none
    | ds =>
      let kept := ds.take 9
      some (Json.valueOf kept * Nat.pow 10 (9 - kept.length), rest.drop ds.length)
  | _ => some (0, cs)

/-- The minutes of an offset, two digits or nothing. -/
def readOffsetMinutes? : List Char → Option (Nat × List Char)
  | a :: b :: rest =>
    if '0' ≤ a && a ≤ '5' && Json.isDigit b then some (Json.valueOf [a, b], rest) else none
  | _ => none

/-- The offset from Universal Time, in seconds. -/
def readOffset? (cs : List Char) : Option (Int × List Char) :=
  match cs with
  | [] => none
  | sign :: rest =>
    if sign = 'Z' || sign = 'z' then some (0, rest)
    else if (cs.take 3).map Char.toUpper = ['U', 'T', 'C'] then some (0, cs.drop 3)
    else if sign = '+' || sign = '-' || sign = '\u2212' then
      match rest with
      | a :: b :: rest => do
        if !(Json.isDigit a && Json.isDigit b) then none
        let rest := rest.dropWhile fun c => c = ':' || Text.isBlank c
        let (minutes, rest) ← readOffsetMinutes? rest
        let seconds : Int := Json.valueOf [a, b] * 3600 + minutes * 60
        if seconds < 86400 then
          some (if sign = '+' then seconds else -seconds, rest)
        else none
      | _ => none
    else none

/-- Years up to which moments are kept. -/
def maxYear : Int := 262142

def inRange (day : Int) : Bool :=
  Calendar.toDays (-maxYear - 1) 1 1 ≤ day && day ≤ Calendar.toDays maxYear 12 31

/-- The moment that a text names. -/
def parse? (text : String) : Option Moment := do
  let (year, rest) ← readYear? text.toList
  let (month, rest) ← readPart? 12 (← afterMark? '-' rest)
  let (day, rest) ← readPart? 31 (← afterMark? '-' rest)
  let rest ← match rest with
    | 'T' :: rest | 't' :: rest | ' ' :: rest => some rest
    | _ => none
  let (hour, rest) ← readPart? 23 rest
  let (minute, rest) ← readPart? 59 (← afterMark? ':' rest)
  let (second, rest) ← readPart? 60 (← afterMark? ':' rest)
  let (nanos, rest) ← readFraction? rest
  let (offset, rest) ← readOffset? (skipBlanks rest)
  if !(skipBlanks rest).isEmpty || !Calendar.isDate year month day then none
  let leap := second = 60
  let local_ : Int := hour * 3600 + minute * 60 + (if leap then 59 else second : Nat)
  let date := Calendar.toDays year month day
  let shifted := local_ - offset
  let m : Moment :=
    ⟨date + shifted / 86400, (shifted % 86400).toNat, nanos + if leap then 1000000000 else 0⟩
  if inRange date && inRange m.day then some m else none

end Moment

end JobHierarchy
