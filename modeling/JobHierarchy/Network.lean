import JobHierarchy.Http.Wire
import Std.Async.TCP
import Std.Async.DNS
import Std.Async.Timer
/-!
# The network

Messages over connections of the operating system, one connection for each. Only plain connections
are made; a host that wants another kind counts as out of reach.
-/

namespace JobHierarchy.Network

open Std.Async Std.Net

/-- The addresses of a host. -/
def addresses (host : String) (port : UInt16) : Async (List SocketAddress) := do
  let bare := String.ofList (host.toList.filter fun c => c != '[' && c != ']')
  let found ← DNS.getAddrInfo bare (toString port)
  return found.toList.map fun
    | .v4 addr => .v4 ⟨addr, port⟩
    | .v6 addr => .v6 ⟨addr, port⟩

/-- A connection to the first address that takes one. -/
def connectFirst : List SocketAddress → Async (Option TCP.Socket.Client)
  | [] => return none
  | address :: rest => do
    let client ← TCP.Socket.Client.mk
    try
      client.connect address
      return some client
    catch _ => connectFirst rest

/-- Reads until the response is whole. -/
partial def receive (client : TCP.Socket.Client) (bytes : List UInt8) :
    Async (Option Http.Response) := do
  match ← client.recv? 65536 with
  | none => return Http.Response.decode? true bytes
  | some more =>
    let bytes := bytes ++ more.toList
    match Http.Response.decode? false bytes with
    | some response => return some response
    | none => receive client bytes

/-- Sends a message and waits for its response. -/
def converse (message : Http.Message) : Async (Except Http.Fault Http.Response) := do
  let url := message.url
  if url.scheme = .https then return .error (.unreachable url)
  let client ← try connectFirst (← addresses url.host url.actualPort.toUInt16) catch _ => pure none
  match client with
  | none => return .error (.unreachable url)
  | some client =>
    try
      client.send message.encode
      match ← receive client [] with
      | some response => return .ok response
      | none => return .error (.unanswered url)
    catch _ => return .error (.unanswered url)

/-- The longest time that is waited at once, in milliseconds. -/
def longestWait : Nat := UInt32.size / 2

/-- The network, with a bound on the time of an exchange in milliseconds. -/
def exchange (timeout : Nat) : Http.Exchange IO := fun message => do
  let limit : Async (Except Http.Fault Http.Response) := do
    (← Sleep.mk (.ofNat (min timeout longestWait))).wait
    return .error (.unanswered message.url)
  have : Inhabited (Except Http.Fault Http.Response) := ⟨.error (.unanswered message.url)⟩
  (Async.race (converse message) limit).block

end JobHierarchy.Network
