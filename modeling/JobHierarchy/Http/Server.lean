import JobHierarchy.Documents
import JobHierarchy.Http.Message
import JobHierarchy.Program
import JobHierarchy.Text.Blank
/-!
# A job server on the web

How the requests to a job server go over a network: each is one message, whose response is an
answer, a JSON document, or an error page. A missing page means that the item is missing; of other
error pages the beginning is reported.
-/

namespace JobHierarchy.Http

/-- Where a server is and who asks. -/
structure Endpoint where
  baseUrl : String
  credentials : Option Credentials
  deriving DecidableEq, Repr

/-! ## Documents -/

open Json.Decode

/-- A document of an item: what is in it, if it can hold something, and its builds. -/
structure ItemDocument where
  jobs : Option (List String) := none
  builds : List BuildHandle := []

def nameOf (v : Json) : Json.Decode.Decoded String := do
  let (name, form) ← fields ["name"] true (none : Option String)
    (fun _ _ v => do return some (← string v)) v
  required form "name" name

structure BuildDraft where
  number : Option Nat := none
  url : Option String := none

/-- Build numbers have 32 bits. -/
def buildOf (v : Json) : Json.Decode.Decoded BuildHandle := do
  let (d, form) ← fields ["number", "url"] true ({} : BuildDraft)
    (fun d i v => match i with
      | 0 => do
        let n ← natural v
        if n < UInt32.size then return { d with number := some n } else wrongType
      | _ => do return { d with url := some (← string v) }) v
  return ⟨← required form "number" d.number, ← required form "url" d.url⟩

def ItemDocument.ofJson (v : Json) : Json.Decode.Decoded ItemDocument := do
  let (d, _) ← fields ["jobs", "builds"] true ({} : ItemDocument)
    (fun d i v => match i with
      | 0 => do return { d with jobs := ← optional (list nameOf) v }
      | _ => do return { d with builds := ← list buildOf v }) v
  return d

structure BuildDocument where
  result : Option (Option BuildResult) := none
  building : Bool := false

/-- The result of a build; none while it is building. -/
def resultOf (v : Json) : Json.Decode.Decoded (Option BuildResult) := do
  let (d, form) ← fields ["result", "building"] true ({} : BuildDocument)
    (fun d i v => match i with
      | 0 => do return { d with result := some (← optional BuildResult.ofJson v) }
      | _ => do return { d with building := ← bool v }) v
  let result ← if form = .byName then pure (d.result.getD none) else required form "result" d.result
  return if d.building then none else result

/-- The value in the body of a response. -/
def bodyJson? (body : List UInt8) : Option Json :=
  (String.fromUTF8? (ByteArray.mk body.toArray)).bind Json.parse?

/-! ## Messages -/

section

variable {m : Type → Type} [Monad m]

/-- The error that a response stands for, if it is one. -/
def errorOf? (response : Response) (kind name : String) : Option Error :=
  if response.isSuccess || response.isRedirection then none
  else if response.status = 404 then some (.notFound kind name)
  else
    let beginning := String.ofList ((Text.decodeLossy response.body).toList.take 200)
    some (.transport (some response.status) (kind ++ " " ++ name ++ ": " ++ Text.trim beginning))

/-- Sends a message about an item. -/
def send (exchange : Exchange m) (message : Except Url.Fault Message) (kind name : String) :
    m (Except Error Response) := do
  match message with
  | .error fault => return .error (Fault.badAddress fault).toError
  | .ok message =>
    match ← fetch exchange maxRedirections message with
    | .error fault => return .error fault.toError
    | .ok response =>
      match errorOf? response kind name with
      | some e => return .error e
      | none => return .ok response

/-- The document at an address; nothing if it is missing. -/
def getDocument {α : Type} (exchange : Exchange m) (report : LogEvent → m Unit)
    (endpoint : Endpoint) (url kind name : String) (read : Json → Json.Decode.Decoded α) :
    m (Except Error (Option α)) := do
  report ⟨.debug, "GET " ++ url⟩
  let message := (Url.parse url).map fun url => Message.to .get url endpoint.credentials
  match ← send exchange message kind name with
  | .ok response =>
    match (bodyJson? response.body).map read with
    | some (.ok a) => return .ok (some a)
    | _ => return .error Fault.undecodable.toError
  | .error e => if e.isNotFound then return .ok none else return .error e

/-- The document at an address, which has to be there. -/
def needDocument {α : Type} (exchange : Exchange m) (report : LogEvent → m Unit)
    (endpoint : Endpoint) (url kind name : String) (read : Json → Json.Decode.Decoded α) :
    m (Except Error α) := do
  match ← getDocument exchange report endpoint url kind name read with
  | .ok (some a) => return .ok a
  | .ok none => return .error (.notFound kind name)
  | .error e => return .error e

/-- Sends a form or an empty body and drops the response. -/
def post (exchange : Exchange m) (url : String) (credentials : Option Credentials)
    (kind name : String) (change : Message → Message) : m (Except Error Unit) := do
  let message := (Url.parse url).map fun url => change (Message.to .post url credentials)
  match ← send exchange message kind name with
  | .ok _ => return .ok ()
  | .error e => return .error e

/-- The message that creates an item of a name from a definition. -/
def creating (name contentType definition : String) (message : Message) : Message :=
  { message with url := message.url.withField "name" name }.withBody contentType definition

/-- Carries out a request to a job server. -/
def perform (exchange : Exchange m) (report : LogEvent → m Unit) (endpoint : Endpoint) :
    (r : Request) → m (Except Error r.Answer)
  | .getJob scope name => do
    let url := itemUrl endpoint.baseUrl scope name ++ "api/json?tree=name"
    let found ← getDocument exchange report endpoint url "job" name .ok
    return found.map fun document => document.map fun _ => (⟨scope, name⟩ : JobRef)
  | .folderView job => do
    let itemUrl := job.url endpoint.baseUrl
    let found ← needDocument exchange report endpoint (itemUrl ++ "api/json?tree=jobs[name]")
      "job" job.name ItemDocument.ofJson
    return found.map fun document => document.jobs.map fun jobs => ⟨.ofUrl itemUrl, jobs⟩
  | .createJob scope name definition =>
    post exchange (scopeUrl endpoint.baseUrl scope ++ "createItem") endpoint.credentials
      "job" name (creating name "application/xml" definition)
  | .deleteJob scope name =>
    post exchange (itemUrl endpoint.baseUrl scope name ++ "doDelete") endpoint.credentials
      "job" name id
  | .triggerBuild job =>
    post exchange (job.url endpoint.baseUrl ++ "build") endpoint.credentials "job" job.name id
  | .listBuilds job => do
    let url := job.url endpoint.baseUrl ++ "api/json?tree=builds[number,url]"
    let found ← needDocument exchange report endpoint url "job" job.name ItemDocument.ofJson
    return found.map ItemDocument.builds
  | .buildResult build =>
    needDocument exchange report endpoint
      (withSlash build.url ++ "api/json?tree=result,building")
      "build" ("#" ++ toString build.number) resultOf
  | .stopBuild build =>
    post exchange (withSlash build.url ++ "stop") endpoint.credentials
      "build" ("#" ++ toString build.number) id
  | .submitFolder target name definition credentials =>
    post exchange (withSlash target ++ "createItem") credentials
      "folder" name (creating name "text/xml" definition)

/-- Carries out programs on a job server. How many items the server holds is not known; no server
holds as many as are allowed for. -/
def handler (exchange : Exchange m) (waiting : Waiting m) (endpoint : Endpoint) : Handler m where
  toWaiting := waiting
  perform := perform exchange waiting.report endpoint
  census := pure UInt64.size

end

end JobHierarchy.Http
