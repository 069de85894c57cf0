import JobHierarchy.Http.Message
import JobHierarchy.Text.Blank
import JobHierarchy.Text.Number
/-!
# Messages and responses as bytes

`Message.encode` is what is sent for a message, and `Response.decode?` reads what comes back. A body
ends where its length says, after its last chunk, or where nothing says more, at the end of the
connection.
-/

namespace JobHierarchy.Http

def lineEnd : String := "\r\n"

/-- A header line; none without a value. -/
def headerLine (name : String) : Option String → String
  | some value => name ++ ": " ++ value ++ lineEnd
  | none => ""

/-- The lines in front of the body. The connection is meant for one message. -/
def Message.head (message : Message) : String :=
  let length := match message.method with
    | .get => none
    | .post => some (toString message.body.utf8ByteSize)
  message.method.name ++ " " ++ message.url.target ++ " HTTP/1.1" ++ lineEnd
    ++ headerLine "host" (some message.url.authority)
    ++ headerLine "accept" (some "*/*")
    ++ headerLine "authorization" message.authorization
    ++ headerLine "content-type" message.contentType
    ++ headerLine "content-length" length
    ++ headerLine "connection" (some "close")
    ++ lineEnd

def Message.encode (message : Message) : ByteArray := (message.head ++ message.body).toUTF8

namespace Response

/-- Bytes as characters of the same numbers. -/
def charsOf (bytes : List UInt8) : List Char := bytes.map fun b => Char.ofNat b.toNat

def bytesOf (cs : List Char) : List UInt8 := cs.map fun c => c.toNat.toUInt8

/-- What stands in front of a body. Names of fields are in lower case. -/
structure Head where
  status : Nat
  fields : List (String × String)
  deriving DecidableEq, Repr

def status? (line : List Char) : Option Nat :=
  match Text.splitAt ' ' line with
  | _ :: code :: _ => (Text.naturalBelow 10 1000 code).toOption
  | _ => none

def field? (line : List Char) : Option (String × String) :=
  (Text.cutAt? [':'] line).map fun (name, value) =>
    (String.ofList (name.map Char.toLower), String.ofList (Text.trimBy Text.isBlank value))

def head? (cs : List Char) : Option Head :=
  match (Text.splitAt '\n' cs).map (Text.trimBy (· = '\r')) with
  | first :: rest => (status? first).map fun status => ⟨status, rest.filterMap field?⟩
  | [] => none

/-- The pieces of a body in chunks up to the last one, with at most `fuel` chunks. -/
def chunks? : (fuel : Nat) → List Char → Option (List Char)
  | 0, _ => none
  | fuel + 1, cs => do
    let (line, rest) ← Text.cutAt? ['\r', '\n'] cs
    let digits := Text.trimBy Text.isBlank (line.takeWhile (· != ';'))
    let size ← (Text.naturalBelow 16 UInt64.size digits).toOption
    if size = 0 then return []
    if rest.length < size + 2 then none
    return rest.take size ++ (← chunks? fuel (rest.drop (size + 2)))

/-- The body behind a head, once it is there. -/
def body? (head : Head) (ended : Bool) (rest : List Char) : Option (List Char) :=
  if head.status = 204 || head.status = 304 then some []
  else if (head.fields.lookup "transfer-encoding").any (·.toLower = "chunked") then
    chunks? (rest.length + 1) rest
  else match head.fields.lookup "content-length" with
    | some text =>
      match Text.natural64 text with
      | .ok size => if size ≤ rest.length then some (rest.take size) else none
      | .error _ => none
    | none => if ended then some rest else none

/-- The response in what has come so far, passing over those that only say to wait. -/
def ofChars? (ended : Bool) : (fuel : Nat) → List Char → Option Response
  | 0, _ => none
  | fuel + 1, cs => do
    let (lines, rest) ← Text.cutAt? ['\r', '\n', '\r', '\n'] cs
    let head ← head? lines
    if head.status < 200 then ofChars? ended fuel rest
    else
      return {
        status := head.status
        location := head.fields.lookup "location"
        body := bytesOf (← body? head ended rest) }

/-- The response in the bytes that have come, if it is whole. -/
def decode? (ended : Bool) (bytes : List UInt8) : Option Response :=
  ofChars? ended (bytes.length + 1) (charsOf bytes)

end Response

end JobHierarchy.Http
