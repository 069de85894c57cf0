import JobHierarchy.Http.Message
import JobHierarchy.Poller
import JobHierarchy.Scenario.Error
/-!
# Waiting for a server to come up

A server is up when its front page answers with anything but an error; being asked who one is
counts as an answer. `awaitReady` looks until then, and gives the number of attempts it took.
-/

namespace JobHierarchy.Http

def isReady (response : Response) : Bool :=
  response.isSuccess || response.isRedirection || response.status = 401 || response.status = 403

/-- The words that go with a status. -/
def reason : Nat → String
  | 100 => "Continue" | 101 => "Switching Protocols" | 102 => "Processing"
  | 200 => "OK" | 201 => "Created" | 202 => "Accepted"
  | 203 => "Non Authoritative Information" | 204 => "No Content" | 205 => "Reset Content"
  | 206 => "Partial Content" | 207 => "Multi-Status" | 208 => "Already Reported"
  | 226 => "IM Used" | 300 => "Multiple Choices" | 301 => "Moved Permanently" | 302 => "Found"
  | 303 => "See Other" | 304 => "Not Modified" | 305 => "Use Proxy"
  | 307 => "Temporary Redirect" | 308 => "Permanent Redirect" | 400 => "Bad Request"
  | 401 => "Unauthorized" | 402 => "Payment Required" | 403 => "Forbidden" | 404 => "Not Found"
  | 405 => "Method Not Allowed" | 406 => "Not Acceptable"
  | 407 => "Proxy Authentication Required" | 408 => "Request Timeout" | 409 => "Conflict"
  | 410 => "Gone" | 411 => "Length Required" | 412 => "Precondition Failed"
  | 413 => "Payload Too Large" | 414 => "URI Too Long" | 415 => "Unsupported Media Type"
  | 416 => "Range Not Satisfiable" | 417 => "Expectation Failed" | 418 => "I'm a teapot"
  | 421 => "Misdirected Request" | 422 => "Unprocessable Entity" | 423 => "Locked"
  | 424 => "Failed Dependency" | 425 => "Too Early" | 426 => "Upgrade Required"
  | 428 => "Precondition Required" | 429 => "Too Many Requests"
  | 431 => "Request Header Fields Too Large" | 451 => "Unavailable For Legal Reasons"
  | 500 => "Internal Server Error" | 501 => "Not Implemented" | 502 => "Bad Gateway"
  | 503 => "Service Unavailable" | 504 => "Gateway Timeout" | 505 => "HTTP Version Not Supported"
  | 506 => "Variant Also Negotiates" | 507 => "Insufficient Storage" | 508 => "Loop Detected"
  | 510 => "Not Extended" | 511 => "Network Authentication Required"
  | _ => "<unknown status code>"

section

variable {m : Type → Type} [Monad m]

/-- Looks at the front page once. That there is no connection yet is what one waits for. -/
def look (exchange : Exchange m) (waiting : Waiting m) (url : String) (attempt : Nat) :
    m Bool := do
  let found ← match Url.parse url with
    | .error fault => pure (Except.error (Fault.badAddress fault))
    | .ok url => fetch exchange maxRedirections (Message.to .get url none)
  match found with
  | .ok response =>
    if isReady response then return true
    waiting.report ⟨.warn, "Readiness check returned " ++ toString response.status ++ " "
      ++ reason response.status⟩
    return false
  | .error fault =>
    if attempt = 1 then waiting.report ⟨.info, "Waiting for job server to start..."⟩
    if !fault.isUnreachable then
      waiting.report ⟨.warn, "Readiness check error: " ++ fault.message⟩
    return false

/-- Looks at the front page until the server is up. -/
def awaitReady (exchange : Exchange m) (waiting : Waiting m) (poller : Poller) (url : String)
    (timeout : Nat) : m (Except Scenario.Error Nat) := do
  let test (attempt : Nat) : StateT Nat m Bool := do
    set attempt
    StateT.lift (look exchange waiting url attempt)
  let inner : Waiting (StateT Nat m) :=
    ⟨fun e => waiting.report e, fun n => waiting.sleep n, waiting.clock⟩
  let (result, attempts) ←
    (poller.pollTrueIn inner ("job server at " ++ url) timeout test).run.run 0
  match result with
  | .ok () =>
    waiting.report ⟨.info, "Job server is ready at " ++ url⟩
    return .ok attempts
  | .error e => return .error (if e.isTimeout then .serverNotReady attempts else .api e)

end

end JobHierarchy.Http
