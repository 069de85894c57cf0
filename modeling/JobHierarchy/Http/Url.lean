import JobHierarchy.Text.Number
import JobHierarchy.Text.Split
/-!
# Web addresses

A `Url` is an address of the web in the one form in which it goes over the wire: scheme and host in
lower case, the default port left out, dots in the path resolved, and characters that may not stand
in a URL written as percent signs with two digits. `Url.parse` reads an address as a person writes
it, `Url.display` writes it, and `Url.join` resolves one address against another.
-/

namespace JobHierarchy.Http

/-! ## Percent signs -/

def hexUpper (n : Nat) : Char := "0123456789ABCDEF".toList.getD (n % 16) '0'

def percentByte (b : UInt8) : List Char := ['%', hexUpper (b.toNat / 16), hexUpper b.toNat]

/-- Characters that do not stand for themselves anywhere in a URL. -/
def isControl (c : Char) : Bool := c.toNat < 0x20 || 0x7E < c.toNat

/-- Writes the bytes of the characters for which `escaped` holds as percent signs and digits. -/
def percentEncode (escaped : Char → Bool) (cs : List Char) : List Char :=
  cs.flatMap fun c =>
    if isControl c || escaped c then (String.singleton c).toUTF8.toList.flatMap percentByte else [c]

def escapedInPath (c : Char) : Bool := " \"#<>?`\x7b\x7d".toList.contains c

def escapedInQuery (c : Char) : Bool := " \"#<>'".toList.contains c

def escapedInFragment (c : Char) : Bool := " \"<>`".toList.contains c

/-- The value of a form field: a plus sign for a space, and only letters, digits and four other
characters as they are. -/
def formEncode (s : String) : String :=
  let plain (c : Char) := c.isAlphanum || "*-._".toList.contains c
  String.ofList (s.toList.flatMap fun c =>
    if c = ' ' then ['+'] else percentEncode (fun c => !plain c) [c])

/-- Bytes where there are percent signs with two digits. -/
def percentDecode : List Char → List UInt8
  | '%' :: a :: b :: rest =>
    match Text.digitValue 16 a, Text.digitValue 16 b with
    | some x, some y => UInt8.ofNat (x * 16 + y) :: percentDecode rest
    | _, _ => UInt8.ofNat '%'.toNat :: percentDecode (a :: b :: rest)
  | c :: rest => (String.singleton c).toUTF8.toList ++ percentDecode rest
  | [] => []

/-! ## Hosts -/

def isForbiddenInHost (c : Char) : Bool :=
  c.toNat ≤ 0x20 || c.toNat = 0x7F || "#/:<>?@[\\]^|%".toList.contains c

/-- A number in an address of four parts: decimal, with `0x` in base sixteen, with `0` in eight. -/
def addressPart? (cs : List Char) : Option Nat :=
  let digits (base : Nat) (ds : List Char) : Option Nat :=
    (ds.mapM (Text.digitValue base)).map fun vs => vs.foldl (fun n d => n * base + d) 0
  match cs with
  | [] => none
  | '0' :: 'x' :: rest | '0' :: 'X' :: rest => digits 16 rest
  | '0' :: d :: rest => digits 8 (d :: rest)
  | _ => digits 10 cs

/-- The parts of a host between dots, without an empty one at the end. -/
def hostParts (host : List Char) : List (List Char) :=
  let parts := Text.splitAt '.' host
  if parts.length > 1 && parts.getLast? = some [] then parts.dropLast else parts

/-- A host whose last part is a number is an address. -/
def endsInNumber (host : List Char) : Bool :=
  match (hostParts host).getLast? with
  | some part => part ≠ [] && (part.all Char.isDigit || (addressPart? part).isSome)
  | none => false

/-- The four parts of an address; the last number may stand for several of them. -/
def address? (host : List Char) : Option String := do
  let parts := hostParts host
  if 4 < parts.length then none
  let numbers ← parts.mapM addressPart?
  let last ← numbers.getLast?
  if numbers.dropLast.any (255 < ·) || Nat.pow 256 (5 - numbers.length) ≤ last then none
  let high := numbers.dropLast.foldl (fun n d => n * 256 + d) 0
  let n := high * Nat.pow 256 (5 - numbers.length) + last
  return ".".intercalate
    ([n / 0x1000000, n / 0x10000 % 256, n / 0x100 % 256, n % 256].map toString)

/-- The sixteen-bit groups between colons. -/
def groups? (parts : List (List Char)) : Option (List Nat) :=
  parts.mapM fun part =>
    if part = [] || 4 < part.length then none
    else (part.mapM (Text.digitValue 16)).map fun ds => ds.foldl (fun n d => n * 16 + d) 0

/-- The eight groups of an address in brackets. Two colons stand for groups of zero. -/
def longAddress? (cs : List Char) : Option (List Nat) := do
  let sides : List Char → Option (List Nat) := fun side =>
    if side = [] then some [] else groups? (Text.splitAt ':' side)
  match Text.cutAt? [':', ':'] cs with
  | some (left, right) =>
    let left ← sides left
    let right ← sides right
    let missing := 8 - (left.length + right.length)
    if missing = 0 then none else some (left ++ List.replicate missing 0 ++ right)
  | none =>
    let groups ← groups? (Text.splitAt ':' cs)
    if groups.length = 8 then some groups else none

/-- The start and length of the longest run of zero groups, of several the first; runs of one do not
count. -/
def zeroRun (groups : List Nat) : Option (Nat × Nat) :=
  let runAt (i : Nat) : Nat := ((groups.drop i).takeWhile (· = 0)).length
  let best := (List.range groups.length).foldl
    (fun (best : Nat × Nat) i => if best.2 < runAt i then (i, runAt i) else best) (0, 1)
  if 1 < best.2 then some best else none

def showLongAddress (groups : List Nat) : String :=
  let text (gs : List Nat) := ":".intercalate (gs.map fun g => String.ofList (Nat.toDigits 16 g))
  match zeroRun groups with
  | some (i, n) => "[" ++ text (groups.take i) ++ "::" ++ text (groups.drop (i + n)) ++ "]"
  | none => "[" ++ text groups ++ "]"

/-- The host as it stands on the wire. -/
def host? (cs : List Char) : Option String :=
  match cs with
  | '[' :: rest =>
    if rest.getLast? = some ']' then (longAddress? rest.dropLast).map showLongAddress else none
  | _ => do
    let text ← String.fromUTF8? (ByteArray.mk (percentDecode cs).toArray)
    let host := text.toList.map Char.toLower
    if host = [] || host.any isForbiddenInHost then none
    if endsInNumber host then address? host else some (String.ofList host)

/-! ## Addresses -/

inductive Scheme where
  | http
  | https
  deriving DecidableEq, Repr

def Scheme.name : Scheme → String
  | .http => "http"
  | .https => "https"

def Scheme.defaultPort : Scheme → Nat
  | .http => 80
  | .https => 443

structure Url where
  scheme : Scheme
  /-- Who asks, in front of the host. -/
  user : Option (String × String)
  host : String
  /-- The port, unless it is the scheme's own. -/
  port : Option Nat
  /-- The parts of the path. -/
  path : List String
  query : Option String
  fragment : Option String
  deriving DecidableEq, Repr

namespace Url

/-- The port that is connected to. -/
def actualPort (url : Url) : Nat := url.port.getD url.scheme.defaultPort

/-- The host with the port where it is not the scheme's own. -/
def authority (url : Url) : String :=
  url.host ++ (match url.port with
    | some p => ":" ++ toString p
    | none => "")

/-- What is asked of the host. -/
def target (url : Url) : String :=
  "/" ++ "/".intercalate url.path ++ (url.query.elim "" ("?" ++ ·))

/-- The address without the user. -/
def display (url : Url) : String :=
  url.scheme.name ++ "://" ++ url.authority ++ url.target ++ (url.fragment.elim "" ("#" ++ ·))

/-- A part of a path that stands for the place itself or for the one above. -/
def dots (cs : List Char) : Nat :=
  let s := String.ofList (cs.map Char.toLower)
  if [".", "%2e"].contains s then 1
  else if ["..", ".%2e", "%2e.", "%2e%2e"].contains s then 2
  else 0

/-- Walks the parts of a path from the parts so far, resolving dots. -/
def walk (done : List String) : List (List Char) → List String
  | [] => done
  | [last] =>
    match dots last with
    | 0 => done ++ [String.ofList (percentEncode escapedInPath last)]
    | 1 => done ++ [""]
    | _ => done.dropLast ++ [""]
  | part :: rest =>
    match dots part with
    | 0 => walk (done ++ [String.ofList (percentEncode escapedInPath part)]) rest
    | 1 => walk done rest
    | _ => walk done.dropLast rest

def isSlash (c : Char) : Bool := c = '/' || c = '\\'

/-- The parts of a path. -/
def pathParts (cs : List Char) : List (List Char) :=
  Text.splitAt '/' (cs.map fun c => if c = '\\' then '/' else c)

/-- Splits off the part from a mark on, if the mark occurs. -/
def splitMark (mark : Char) (cs : List Char) : List Char × Option (List Char) :=
  match Text.cutAt? [mark] cs with
  | some (before, after) => (before, some after)
  | none => (cs, none)

/-- Path, query and fragment of a text. -/
def splitTail (cs : List Char) : List Char × Option (List Char) × Option (List Char) :=
  let (cs, fragment) := splitMark '#' cs
  let (path, query) := splitMark '?' cs
  (path, query, fragment)

def encodeQuery (query : Option (List Char)) : Option String :=
  query.map fun q => String.ofList (percentEncode escapedInQuery q)

def encodeFragment (fragment : Option (List Char)) : Option String :=
  fragment.map fun f => String.ofList (percentEncode escapedInFragment f)

/-- The text without the white space around it and without tabs and line breaks in it. -/
def clean (text : String) : List Char :=
  (Text.trimBy (fun c => c.toNat ≤ 0x20) text.toList).filter fun c =>
    c ≠ '\t' && c ≠ '\n' && c ≠ '\r'

/-- The scheme of an address in lower case and what follows its colon. -/
def splitScheme? (cs : List Char) : Option (String × List Char) :=
  let name := cs.takeWhile fun c => c.isAlphanum || c = '+' || c = '-' || c = '.'
  match name, cs.drop name.length with
  | first :: _, ':' :: rest =>
    if first.isAlpha then some (String.ofList (name.map Char.toLower), rest) else none
  | _, _ => none

/-- The port of a text of digits; none where it is empty or the scheme's own. -/
def port? (scheme : Scheme) (cs : List Char) : Option (Option Nat) :=
  if cs = [] then some none
  else if cs.all Char.isDigit then
    match Text.naturalBelow 10 65536 cs with
    | .ok n => some (if n = scheme.defaultPort then none else some n)
    | .error _ => none
  else none

/-- Host and port; a colon in brackets belongs to the host. -/
def splitPort (cs : List Char) : List Char × List Char :=
  let reversed := cs.reverse
  let tail := reversed.takeWhile fun c => c ≠ ':' && c ≠ ']'
  match reversed.drop tail.length with
  | ':' :: host => (host.reverse, tail.reverse)
  | _ => (cs, [])

/-- User and password in front of the last at sign. -/
def splitUser (cs : List Char) : Option (String × String) × List Char :=
  let reversed := cs.reverse
  let host := reversed.takeWhile (· ≠ '@')
  match reversed.drop host.length with
  | '@' :: user =>
    let (name, password) := splitMark ':' user.reverse
    let decode (cs : List Char) := (String.fromUTF8? (ByteArray.mk (percentDecode cs).toArray)).getD ""
    (some (decode name, decode (password.getD [])), host.reverse)
  | _ => (none, cs)

/-- The part after the scheme of a web address. -/
def afterScheme? (scheme : Scheme) (cs : List Char) : Option Url := do
  let cs := cs.dropWhile isSlash
  let authority := cs.takeWhile fun c => !isSlash c && c ≠ '?' && c ≠ '#'
  let (user, rest) := splitUser authority
  let (hostText, portText) := splitPort rest
  let host ← host? hostText
  let port ← port? scheme portText
  let (path, query, fragment) := splitTail (cs.drop authority.length)
  return {
    scheme, host, port
    user := if user = some ("", "") then none else user
    path := walk [] (pathParts (path.drop 1))
    query := encodeQuery query
    fragment := encodeFragment fragment }

/-- Why a text is no web address. -/
inductive Fault where
  | malformed
  /-- An address with another scheme. -/
  | otherScheme (url : String)
  deriving DecidableEq, Repr

def ofChars (cs : List Char) : Except Fault Url :=
  match splitScheme? cs with
  | none => .error .malformed
  | some (name, rest) =>
    let scheme : Option Scheme :=
      if name = "http" then some .http else if name = "https" then some .https else none
    match scheme with
    | none => .error (.otherScheme (name ++ ":" ++ String.ofList rest))
    | some scheme =>
      match afterScheme? scheme rest with
      | some url => .ok url
      | none => .error .malformed

/-- The address that a text names by itself. -/
def parse (text : String) : Except Fault Url := ofChars (clean text)

/-- The address that a text names when it is found at another address. -/
def join (base : Url) (text : String) : Except Fault Url :=
  let cs := clean text
  match splitScheme? cs with
  | some _ => ofChars cs
  | none =>
    let (path, query, fragment) := splitTail cs
    match path with
    | a :: b :: _ =>
      if isSlash a && isSlash b then
        match afterScheme? base.scheme cs with
        | some url => .ok url
        | none => .error .malformed
      else if isSlash a then
        .ok { base with
          path := walk [] (pathParts (path.drop 1))
          query := encodeQuery query, fragment := encodeFragment fragment }
      else
        .ok { base with
          path := walk base.path.dropLast (pathParts path)
          query := encodeQuery query, fragment := encodeFragment fragment }
    | [a] =>
      .ok { base with
        path := if isSlash a then [""] else walk base.path.dropLast [[a]]
        query := encodeQuery query, fragment := encodeFragment fragment }
    | [] =>
      .ok { base with
        query := if query.isSome then encodeQuery query else base.query
        fragment := encodeFragment fragment }

/-- The address with one more field in its query. -/
def withField (url : Url) (name value : String) : Url :=
  let field := formEncode name ++ "=" ++ formEncode value
  { url with query := some (match url.query with
    | some q => if q = "" then field else q ++ "&" ++ field
    | none => field) }

end Url

end JobHierarchy.Http
