import JobHierarchy.Json.Value
import JobHierarchy.Text.Number
import JobHierarchy.Text.Split
/-!
# Reading JSON

Strict JSON: one value with white space around it, no trailing commas, no raw control characters in
strings, escapes in pairs where they stand for one character beyond the basic plane. Values nest at
most 127 deep, and a number must not be too large for a binary64 number.
-/

namespace JobHierarchy.Json

/-- White space between tokens. -/
def isSpace (c : Char) : Bool := c = ' ' || c = '\n' || c = '\r' || c = '\t'

def skipSpace (cs : List Char) : List Char := cs.dropWhile isSpace

/-- The value of four hexadecimal digits and what follows them. -/
def hex4? : List Char → Option (Nat × List Char)
  | a :: b :: c :: d :: rest => do
    let a ← Text.digitValue 16 a
    let b ← Text.digitValue 16 b
    let c ← Text.digitValue 16 c
    let d ← Text.digitValue 16 d
    return (((a * 16 + b) * 16 + c) * 16 + d, rest)
  | _ => none

/-- The character of an escape, after its backslash, and what follows. -/
def readEscape? : List Char → Option (Char × List Char)
  | '\x22' :: rest => some ('\x22', rest)
  | '\\' :: rest => some ('\\', rest)
  | '/' :: rest => some ('/', rest)
  | 'b' :: rest => some ('\x08', rest)
  | 'f' :: rest => some ('\x0c', rest)
  | 'n' :: rest => some ('\n', rest)
  | 'r' :: rest => some ('\r', rest)
  | 't' :: rest => some ('\t', rest)
  | 'u' :: rest => do
    let (high, rest) ← hex4? rest
    if 0xDC00 ≤ high && high ≤ 0xDFFF then none
    else if 0xD800 ≤ high && high ≤ 0xDBFF then
      match rest with
      | '\\' :: 'u' :: rest => do
        let (low, rest) ← hex4? rest
        if 0xDC00 ≤ low && low ≤ 0xDFFF then
          some (Char.ofNat (0x10000 + (high - 0xD800) * 0x400 + (low - 0xDC00)), rest)
        else none
      | _ => none
    else some (Char.ofNat high, rest)
  | _ => none

/-- The rest of a string after its opening quote, and what follows the closing one. -/
def readString? : (fuel : Nat) → List Char → (done : List Char) → Option (String × List Char)
  | 0, _, _ => none
  | _ + 1, [], _ => none
  | fuel + 1, c :: cs, done =>
    if c = '\x22' then some (String.ofList done.reverse, cs)
    else if c = '\\' then
      match readEscape? cs with
      | some (e, rest) => readString? fuel rest (e :: done)
      | none => none
    else if c.toNat < 0x20 then none
    else readString? fuel cs (c :: done)

def isDigit (c : Char) : Bool := '0' ≤ c && c ≤ '9'

/-- The digits that a text begins with, at least one. -/
def digits? (cs : List Char) : Option (List Char × List Char) :=
  match cs.takeWhile isDigit with
  | [] => none
  | ds => some (ds, cs.dropWhile isDigit)

def valueOf (ds : List Char) : Nat := ds.foldl (fun n c => n * 10 + (c.toNat - '0'.toNat)) 0

/-- The number `digits · 10^exponent` is beyond the largest binary64 number, when rounded. -/
def exceedsBinary64 (digits : Nat) (exponent : Int) : Bool :=
  if digits = 0 then false
  else
    let places : Int := (Nat.toDigits 10 digits).length + exponent
    if places ≤ 300 then false
    else if places > 320 then true
    else
      let limit := Nat.pow 2 1024 - Nat.pow 2 970
      if exponent ≥ 0 then digits * Nat.pow 10 exponent.toNat ≥ limit
      else digits ≥ limit * Nat.pow 10 (-exponent).toNat

/-- A number. Digits may not begin with a needless zero. -/
def readNumber? (cs : List Char) : Option (JsonNumber × List Char) := do
  let (minus, body) := match cs with
    | '-' :: rest => (true, rest)
    | _ => (false, cs)
  let (whole, rest) ← digits? body
  if whole.length > 1 && whole.head? = some '0' then none
  let (fraction, rest) ← match rest with
    | '.' :: more => (digits? more).map fun (ds, r) => (some ds, r)
    | _ => some (none, rest)
  let (exponent, rest) ← match rest with
    | e :: more =>
      if e = 'e' || e = 'E' then
        let (sign, body) := match more with
          | '+' :: r => (['+'], r)
          | '-' :: r => (['-'], r)
          | _ => ([], more)
        (digits? body).map fun (ds, r) => (some (sign, ds), r)
      else some (none, rest)
    | [] => some (none, rest)
  let text := String.ofList (cs.take (cs.length - rest.length))
  let all := valueOf (whole ++ fraction.getD [])
  let power : Int := match exponent with
    | some (['-'], ds) => - (valueOf ds : Int)
    | some (_, ds) => valueOf ds
    | none => 0
  if exceedsBinary64 all (power - (fraction.getD []).length) then none
  let n := valueOf whole
  let number :=
    if fraction.isSome || exponent.isSome then JsonNumber.decimal text
    else if minus then
      if 0 < n && n ≤ UInt64.size / 2 then .negative n else .decimal text
    else if n < UInt64.size then .natural n else .decimal text
  return (number, rest)

/-- What follows a word that a text begins with. -/
def afterWord? (word : String) (cs : List Char) : Option (List Char) :=
  Text.after? word.toList cs

mutual

/-- A value and what follows it; `depth` more levels may open. -/
def readValue? : (fuel depth : Nat) → List Char → Option (Json × List Char)
  | 0, _, _ => none
  | fuel + 1, depth, cs =>
    match skipSpace cs with
    | [] => none
    | c :: rest =>
      if c = 'n' then (afterWord? "ull" rest).map fun r => (.null, r)
      else if c = 't' then (afterWord? "rue" rest).map fun r => (.bool true, r)
      else if c = 'f' then (afterWord? "alse" rest).map fun r => (.bool false, r)
      else if c = '\x22' then
        (readString? (rest.length + 1) rest []).map fun (s, r) => (.string s, r)
      else if c = '[' then
        match depth with
        | 0 => none
        | depth + 1 =>
          match skipSpace rest with
          | ']' :: r => some (.array [], r)
          | r => (readItems? fuel depth r []).map fun (items, r) => (.array items, r)
      else if c = '\x7b' then
        match depth with
        | 0 => none
        | depth + 1 =>
          match skipSpace rest with
          | '\x7d' :: r => some (.object [], r)
          | r => (readMembers? fuel depth r []).map fun (members, r) => (.object members, r)
      else (readNumber? (c :: rest)).map fun (n, r) => (.number n, r)

/-- The items of an array up to its end. -/
def readItems? : (fuel depth : Nat) → List Char → (done : List Json) →
    Option (List Json × List Char)
  | 0, _, _, _ => none
  | fuel + 1, depth, cs, done => do
    let (item, rest) ← readValue? fuel depth cs
    match skipSpace rest with
    | ',' :: rest => readItems? fuel depth rest (item :: done)
    | ']' :: rest => some ((item :: done).reverse, rest)
    | _ => none

/-- The members of an object up to its end. -/
def readMembers? : (fuel depth : Nat) → List Char → (done : List (String × Json)) →
    Option (List (String × Json) × List Char)
  | 0, _, _, _ => none
  | fuel + 1, depth, cs, done =>
    match skipSpace cs with
    | '\x22' :: rest => do
      let (name, rest) ← readString? (rest.length + 1) rest []
      match skipSpace rest with
      | ':' :: rest => do
        let (value, rest) ← readValue? fuel depth rest
        match skipSpace rest with
        | ',' :: rest => readMembers? fuel depth rest ((name, value) :: done)
        | '\x7d' :: rest => some (((name, value) :: done).reverse, rest)
        | _ => none
      | _ => none
    | _ => none

end

/-- How deep values may nest. -/
def maxDepth : Nat := 127

/-- The value that a text holds. -/
def parse? (text : String) : Option Json := do
  let cs := text.toList
  let (value, rest) ← readValue? (2 * cs.length + 2) maxDepth cs
  if (skipSpace rest).isEmpty then some value else none

end JobHierarchy.Json
