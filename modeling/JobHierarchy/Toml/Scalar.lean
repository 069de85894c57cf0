import JobHierarchy.Json.Reader
import JobHierarchy.Time.Calendar
/-!
# TOML scalars

Strings, numbers, truth values and times of TOML 1.0, as the values that settings are read from. A
reader takes the characters from the start of the scalar on and gives the value and what follows.
A number is a whole number of 64 bits with sign, or a decimal. A time becomes an object with one
name that nothing else has.
-/

namespace JobHierarchy.Toml

def isBlank (c : Char) : Bool := c = ' ' || c = '\t'

def skipBlanks (cs : List Char) : List Char := cs.dropWhile isBlank

/-- Characters allowed in comments, and in strings where they end nothing. -/
def isText (c : Char) : Bool := c = '\t' || (0x20 ≤ c.toNat && c.toNat ≠ 0x7F)

/-- What follows a line break. -/
def afterBreak? : List Char → Option (List Char)
  | '\n' :: rest => some rest
  | '\r' :: '\n' :: rest => some rest
  | _ => none

/-- What follows white space and line breaks. -/
def skipBreaks : List Char → List Char
  | '\n' :: rest => skipBreaks rest
  | '\r' :: '\n' :: rest => skipBreaks rest
  | ' ' :: rest => skipBreaks rest
  | '\t' :: rest => skipBreaks rest
  | cs => cs

/-! ## Strings -/

/-- The character with a code of `count` hexadecimal digits. -/
def readCode? (count : Nat) (cs : List Char) : Option (Char × List Char) := do
  if cs.length < count then none
  let digits ← (cs.take count).mapM (Text.digitValue 16)
  let n := digits.foldl (fun n d => n * 16 + d) 0
  if n < 0xD800 || (0xDFFF < n && n < 0x110000) then some (Char.ofNat n, cs.drop count) else none

/-- The character of an escape, after its backslash. -/
def readEscape? : List Char → Option (Char × List Char)
  | 'b' :: rest => some ('\x08', rest)
  | 't' :: rest => some ('\t', rest)
  | 'n' :: rest => some ('\n', rest)
  | 'f' :: rest => some ('\x0c', rest)
  | 'r' :: rest => some ('\r', rest)
  | '\x22' :: rest => some ('\x22', rest)
  | '\\' :: rest => some ('\\', rest)
  | 'u' :: rest => readCode? 4 rest
  | 'U' :: rest => readCode? 8 rest
  | _ => none

/-- The rest of a string on one line, after its opening quote. Only the double quote knows
escapes. -/
def readLineString? (quote : Char) : (fuel : Nat) → List Char → (done : List Char) →
    Option (String × List Char)
  | 0, _, _ => none
  | _ + 1, [], _ => none
  | fuel + 1, c :: cs, done =>
    if c = quote then some (String.ofList done.reverse, cs)
    else if c = '\\' && quote = '\x22' then
      match readEscape? cs with
      | some (e, rest) => readLineString? quote fuel rest (e :: done)
      | none => none
    else if isText c then readLineString? quote fuel cs (c :: done)
    else none

/-- The rest of a string over several lines, up to three quotes in a row; one or two more of them
belong to the string. A backslash at the end of a line joins it with the next text. -/
def readBlockString? (quote : Char) : (fuel : Nat) → List Char → (done : List Char) →
    Option (String × List Char)
  | 0, _, _ => none
  | _ + 1, [], _ => none
  | fuel + 1, c :: cs, done =>
    if c = quote then
      let run := (c :: cs).takeWhile (· = quote)
      if run.length < 3 then readBlockString? quote fuel cs (c :: done)
      else if 5 < run.length then none
      else
        some (String.ofList (done.reverse ++ run.drop 3), (c :: cs).drop run.length)
    else if c = '\\' && quote = '\x22' then
      match afterBreak? (skipBlanks cs) with
      | some rest => readBlockString? quote fuel (skipBreaks rest) done
      | none =>
        match readEscape? cs with
        | some (e, rest) => readBlockString? quote fuel rest (e :: done)
        | none => none
    else match afterBreak? (c :: cs) with
      | some rest => readBlockString? quote fuel rest ('\n' :: done)
      | none => if isText c then readBlockString? quote fuel cs (c :: done) else none

/-- A string of any kind, from its first quote on. A line break right after three quotes does not
count. -/
def readString? : List Char → Option (String × List Char)
  | [] => none
  | quote :: cs =>
    if quote = '\x22' || quote = '\'' then
      match Text.after? [quote, quote] cs with
      | some rest =>
        readBlockString? quote (rest.length + 1) ((afterBreak? rest).getD rest) []
      | none => readLineString? quote (cs.length + 1) cs []
    else none

/-! ## Numbers -/

/-- Digits with single underscores between them. -/
def readDigits? (base : Nat) : List Char → Option (List Char × List Char)
  | [] => none
  | c :: cs =>
    if (Text.digitValue base c).isSome then some (more c cs) else none
where
  more (c : Char) : List Char → List Char × List Char
    | [] => ([c], [])
    | '_' :: d :: rest =>
      if (Text.digitValue base d).isSome then
        let (ds, rest) := more d rest
        (c :: ds, rest)
      else ([c], '_' :: d :: rest)
    | d :: rest =>
      if (Text.digitValue base d).isSome then
        let (ds, rest) := more d rest
        (c :: ds, rest)
      else ([c], d :: rest)

def valueOf (base : Nat) (digits : List Char) : Nat :=
  digits.foldl (fun n c => n * base + (Text.digitValue base c).getD 0) 0

/-- A whole number of 64 bits with sign. -/
def whole? (minus : Bool) (n : Nat) : Option Json :=
  if minus then
    if n = 0 then some (.number (.natural 0))
    else if n ≤ UInt64.size / 2 then some (.number (.negative n)) else none
  else if n < UInt64.size / 2 then some (.number (.natural n)) else none

/-- A whole number without a sign in a base that its second character names. -/
def readBased? : List Char → Option (Json × List Char)
  | '0' :: 'x' :: rest => based 16 rest
  | '0' :: 'o' :: rest => based 8 rest
  | '0' :: 'b' :: rest => based 2 rest
  | _ => none
where
  based (base : Nat) (rest : List Char) : Option (Json × List Char) := do
    let (ds, rest) ← readDigits? base rest
    return (← whole? false (valueOf base ds), rest)

/-- A fraction, if there is one: its digits. -/
def readFraction? : List Char → Option (Option (List Char) × List Char)
  | '.' :: rest => (readDigits? 10 rest).map fun (ds, rest) => (some ds, rest)
  | cs => some (none, cs)

/-- An exponent, if there is one. -/
def readExponent? : List Char → Option (Option Int × List Char)
  | [] => some (none, [])
  | e :: cs =>
    if e = 'e' || e = 'E' then
      let (minus, body) := match cs with
        | '+' :: rest => (false, rest)
        | '-' :: rest => (true, rest)
        | _ => (false, cs)
      (readDigits? 10 body).map fun (ds, rest) =>
        (some (if minus then - (valueOf 10 ds : Int) else valueOf 10 ds), rest)
    else some (none, e :: cs)

/-- A number. A decimal that is too large for binary64 is refused unless it is negative. -/
def readNumber? (cs : List Char) : Option (Json × List Char) := do
  let (minus, body) := match cs with
    | '+' :: rest => (false, rest)
    | '-' :: rest => (true, rest)
    | _ => (false, cs)
  match Text.after? ['i', 'n', 'f'] body <|> Text.after? ['n', 'a', 'n'] body with
  | some rest => return (.number (.decimal "special"), rest)
  | none =>
    if let some found := readBased? cs then return found
    let (ds, rest) ← readDigits? 10 body
    if 1 < ds.length && ds.head? = some '0' then none
    let (fraction, rest) ← readFraction? rest
    let (exponent, rest) ← readExponent? rest
    if fraction.isNone && exponent.isNone then return (← whole? minus (valueOf 10 ds), rest)
    let digits := ds ++ fraction.getD []
    let power := exponent.getD 0 - (fraction.getD []).length
    if !minus && Json.exceedsBinary64 (valueOf 10 digits) power then none
    return (.number (.decimal (String.ofList (cs.take (cs.length - rest.length)))), rest)

/-! ## Times -/

/-- A number of exactly `count` digits. -/
def readFixed? (count : Nat) (cs : List Char) : Option (Nat × List Char) :=
  let ds := cs.take count
  if ds.length = count && ds.all Json.isDigit then some (Json.valueOf ds, cs.drop count) else none

def readDate? (cs : List Char) : Option (List Char) := do
  let (year, rest) ← readFixed? 4 cs
  let rest ← Text.after? ['-'] rest
  let (month, rest) ← readFixed? 2 rest
  let rest ← Text.after? ['-'] rest
  let (day, rest) ← readFixed? 2 rest
  if Calendar.isDate year month day then some rest else none

def readTimeOfDay? (cs : List Char) : Option (List Char) := do
  let (hour, rest) ← readFixed? 2 cs
  let rest ← Text.after? [':'] rest
  let (minute, rest) ← readFixed? 2 rest
  let rest ← Text.after? [':'] rest
  let (second, rest) ← readFixed? 2 rest
  if 23 < hour || 59 < minute || 60 < second then none
  match rest with
  | '.' :: d :: more => if Json.isDigit d then some (more.dropWhile Json.isDigit) else none
  | '.' :: [] => none
  | _ => some rest

def readOffset? : List Char → Option (List Char)
  | 'Z' :: rest => some rest
  | 'z' :: rest => some rest
  | sign :: rest =>
    if sign = '+' || sign = '-' then do
      let (hour, rest) ← readFixed? 2 rest
      let rest ← Text.after? [':'] rest
      let (minute, rest) ← readFixed? 2 rest
      if 23 < hour || 59 < minute then none else some rest
    else none
  | [] => none

/-- What follows a date, a time of day or both. -/
def readTime? (cs : List Char) : Option (List Char) :=
  match readDate? cs with
  | none => readTimeOfDay? cs
  | some (mark :: rest) =>
    if mark = 'T' || mark = 't' || mark = ' ' then
      match readTimeOfDay? rest with
      | some rest => some ((readOffset? rest).getD rest)
      | none => some (mark :: rest)
    else some (mark :: rest)
  | some [] => some []

/-- The name under which a time stands in an object. -/
def timeName : String := "$__toml_private_datetime"

/-- A scalar. -/
def readScalar? (cs : List Char) : Option (Json × List Char) :=
  match cs with
  | [] => none
  | c :: rest =>
    if c = '\x22' || c = '\'' then (readString? cs).map fun (s, rest) => (.string s, rest)
    else if c = 't' then (Json.afterWord? "rue" rest).map fun rest => (.bool true, rest)
    else if c = 'f' then (Json.afterWord? "alse" rest).map fun rest => (.bool false, rest)
    else
      match readTime? cs with
      | some rest =>
        let text := String.ofList (cs.take (cs.length - rest.length))
        some (.object [(timeName, .string text)], rest)
      | none => readNumber? cs

end JobHierarchy.Toml
