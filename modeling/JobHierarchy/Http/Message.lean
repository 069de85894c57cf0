import JobHierarchy.Error
import JobHierarchy.Http.Url
import JobHierarchy.Settings
import JobHierarchy.Text.Base64
import JobHierarchy.Text.Utf8
/-!
# Messages

Requests and responses of the web, and the exchange of one for the other. An `Exchange` is all that
is asked of a network. `fetch` sends a request and follows the redirections in the responses.
-/

namespace JobHierarchy.Http

inductive Method where
  | get
  | post
  deriving DecidableEq, Repr

def Method.name : Method → String
  | .get => "GET"
  | .post => "POST"

structure Message where
  method : Method
  url : Url
  contentType : Option String
  authorization : Option String
  body : String
  deriving DecidableEq, Repr

structure Response where
  status : Nat
  location : Option String
  body : List UInt8
  deriving DecidableEq, Repr

namespace Response

def isSuccess (r : Response) : Bool := 200 ≤ r.status && r.status < 300

def isRedirection (r : Response) : Bool := 300 ≤ r.status && r.status < 400

end Response

/-- Why a message got no usable response. -/
inductive Fault where
  /-- No connection to the host. -/
  | unreachable (url : Url)
  /-- A connection, but no response in time. -/
  | unanswered (url : Url)
  | tooManyRedirections (url : Url)
  /-- A response with another content than expected. -/
  | undecodable
  | badAddress (fault : Url.Fault)
  deriving DecidableEq, Repr

namespace Fault

def message : Fault → String
  | .unreachable url | .unanswered url => "error sending request for url (" ++ url.display ++ ")"
  | .tooManyRedirections url => "error following redirect for url (" ++ url.display ++ ")"
  | .undecodable => "error decoding response body"
  | .badAddress .malformed => "builder error"
  | .badAddress (.otherScheme url) => "builder error for url (" ++ url ++ ")"

def isUnreachable : Fault → Bool
  | .unreachable _ => true
  | _ => false

def toError (fault : Fault) : Error := .transport none fault.message

end Fault

/-- What a network does with a message. -/
abbrev Exchange (m : Type → Type) := Message → m (Except Fault Response)

/-- The proof of who asks, in the basic scheme. -/
def basicAuthorization (user password : String) : String :=
  "Basic " ++ Text.Base64.encode (user ++ ":" ++ password)

/-- A message to an address. A user in the address counts where nobody else is named. -/
def Message.to (method : Method) (url : Url) (credentials : Option Credentials) : Message where
  method
  url := { url with user := none }
  contentType := none
  authorization :=
    match credentials, url.user with
    | some c, _ => some (basicAuthorization c.username c.apiToken)
    | none, some (user, password) => some (basicAuthorization user password)
    | none, none => none
  body := ""

def Message.withBody (message : Message) (contentType body : String) : Message :=
  { message with contentType := some contentType, body }

/-- Whether two addresses belong to one host. -/
def sameHost (a b : Url) : Bool := a.host = b.host && a.actualPort = b.actualPort

/-- The message that a redirection asks for. Some redirections turn any message into a mere look,
and no other host learns who asks. -/
def Message.redirected (message : Message) (status : Nat) (url : Url) : Message :=
  let message :=
    if status = 301 || status = 302 || status = 303 then
      { message with method := .get, contentType := none, body := "" }
    else message
  { message with
    url
    authorization := if sameHost message.url url then message.authorization else none }

/-- Where a response redirects to. -/
def redirection? (message : Message) (response : Response) : Option Url :=
  if [301, 302, 303, 307, 308].contains response.status then
    response.location.bind fun text => (message.url.join text).toOption
  else none

/-- Sends a message and follows at most `follow` redirections. -/
def fetch {m : Type → Type} [Monad m] (exchange : Exchange m) :
    (follow : Nat) → Message → m (Except Fault Response)
  | follow, message => do
    match ← exchange message with
    | .error fault => return .error fault
    | .ok response =>
      match redirection? message response with
      | none => return .ok response
      | some url =>
        match follow with
        | 0 => return .error (.tooManyRedirections message.url)
        | follow + 1 => fetch exchange follow (message.redirected response.status url)

/-- How many redirections are followed. -/
def maxRedirections : Nat := 10

end JobHierarchy.Http
