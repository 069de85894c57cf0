import JobHierarchy.Text.Number
import JobHierarchy.Text.Split
import JobHierarchy.Json.Reader
import JobHierarchy.Yaml.Node
/-!
# What YAML scalars mean

A plain scalar is nothing, a truth value, a number or a string, by its text alone. `meaning` gives
which, and is exact about whole numbers; of a decimal only that it is one matters here.
-/

namespace JobHierarchy.Yaml

inductive Meaning where
  | null
  | bool (b : Bool)
  /-- A whole number from -2^63 to 2^64 - 1. -/
  | whole (n : Int)
  /-- A whole number beyond these. -/
  | wholeBeyond
  | decimal
  | string (s : String)
  deriving DecidableEq, Repr

def nullWords : List String := ["null", "Null", "NULL", "~"]

def bool? (s : String) : Option Bool :=
  if ["true", "True", "TRUE"].contains s then some true
  else if ["false", "False", "FALSE"].contains s then some false
  else none

/-- Digits behind a needless zero: a string, not a number. -/
def isPaddedNumber (cs : List Char) : Bool :=
  let digits := match cs with
    | '-' :: rest | '+' :: rest => rest
    | _ => cs
  match digits with
  | '0' :: d :: more => (d :: more).all Json.isDigit
  | _ => false

/-- All digits of a base, at least one. -/
def digitsValue? (base : Nat) (cs : List Char) : Option Nat :=
  if cs = [] then none
  else (cs.mapM (Text.digitValue base)).map fun ds => ds.foldl (fun n d => n * base + d) 0

/-- The base that a text names in front, and its digits. -/
def based? : List Char → Option (Nat × List Char)
  | '0' :: 'x' :: rest => some (16, rest)
  | '0' :: 'o' :: rest => some (8, rest)
  | '0' :: 'b' :: rest => some (2, rest)
  | _ => none

/-- The whole number that a text is, in decimal or in the base it names. -/
def whole? (cs : List Char) : Option Int :=
  let (minus, body) := match cs with
    | '-' :: rest => (true, rest)
    | '+' :: rest => (false, rest)
    | _ => (false, cs)
  let value := match based? body with
    | some (base, digits) => digitsValue? base digits
    | none => if isPaddedNumber cs then none else digitsValue? 10 body
  value.map fun n => if minus then -(n : Int) else n

/-- A decimal: digits with a point, an exponent or both. -/
def isDecimalText (cs : List Char) : Bool :=
  let body := match cs with
    | '-' :: rest | '+' :: rest => rest
    | _ => cs
  let whole := body.takeWhile Json.isDigit
  let rest := body.dropWhile Json.isDigit
  let (fraction, rest) := match rest with
    | '.' :: more => (more.takeWhile Json.isDigit, more.dropWhile Json.isDigit)
    | _ => ([], rest)
  if whole = [] && fraction = [] then false
  else match rest with
    | [] => fits (whole ++ fraction) (-(fraction.length : Int))
    | e :: more =>
      if e = 'e' || e = 'E' then
        let (minus, ds) := match more with
          | '-' :: r => (true, r)
          | '+' :: r => (false, r)
          | _ => (false, more)
        ds ≠ [] && ds.all Json.isDigit
          && fits (whole ++ fraction)
            ((if minus then -(Json.valueOf ds : Int) else Json.valueOf ds) - fraction.length)
      else false
where
  /-- A decimal that is too large for binary64 is no number. -/
  fits (digits : List Char) (exponent : Int) : Bool :=
    !Json.exceedsBinary64 (Json.valueOf digits) exponent

def isDecimal (s : String) : Bool :=
  let cs := s.toList
  let unsigned := match cs with
    | '+' :: rest => rest
    | _ => cs
  let special := [".inf", ".Inf", ".INF"].contains (String.ofList unsigned)
    || ["-.inf", "-.Inf", "-.INF", ".nan", ".NaN", ".NAN"].contains s
  special || (!isPaddedNumber cs && isDecimalText cs)

/-- The meaning of a plain scalar without a tag. -/
def plainMeaning (s : String) : Meaning :=
  if s = "" || nullWords.contains s then .null
  else match bool? s with
    | some b => .bool b
    | none =>
      match whole? s.toList with
      | some n =>
        if -(UInt64.size / 2 : Nat) ≤ n && n < UInt64.size then .whole n
        else if -(Nat.pow 2 127 : Nat) ≤ n && n < (Nat.pow 2 128 : Nat) then .wholeBeyond
        else if isDecimal s then .decimal else .string s
      | none => if isDecimal s then .decimal else .string s

/-- The tags that fix a meaning. -/
def standardTag (name : String) : String := "tag:yaml.org,2002:" ++ name

/-- The meaning of a scalar; nothing where the text does not have the meaning that its tag asks
for, or where the tag is one of a document's own. -/
def meaning? (tag : Option String) (style : Style) (s : String) : Option Meaning :=
  let untagged := if style = .plain then plainMeaning s else .string s
  match tag with
  | none => some untagged
  | some t =>
    if t = standardTag "bool" then (bool? s).map .bool
    else if t = standardTag "int" then
      match plainMeaning s with
      | .whole n => some (.whole n)
      | .wholeBeyond => some .wholeBeyond
      | _ => none
    else if t = standardTag "float" then
      if isDecimal s || (plainMeaning s matches .whole _ | .wholeBeyond) then some .decimal else none
    else if t = standardTag "null" then if nullWords.contains s then some .null else none
    else if (Text.after? ['!'] t.toList).any (· ≠ []) then none
    else some (.string s)

end JobHierarchy.Yaml
