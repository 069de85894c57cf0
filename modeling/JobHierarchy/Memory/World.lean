import JobHierarchy.Memory.Server
import JobHierarchy.Program
/-!
# A server in time

A `World` is an in-memory server with a clock and with changes that lie ahead of it. Requests take
no time. Time passes when a program sleeps, and the changes that fall due on the way happen in the
order of their times, those of one moment in the order they were planned.
-/

namespace JobHierarchy.Memory

/-- Something that happens to the server at a moment. -/
structure Change where
  due : Nat
  apply : Server → Server

structure World where
  server : Server
  /-- Milliseconds since the start. -/
  now : Nat
  pending : List Change
  log : Array LogEvent

namespace World

def ofServer (server : Server) : World := ⟨server, 0, [], #[]⟩

/-- Plans a change at the given number of milliseconds from now. -/
def plan (w : World) (millis : Nat) (apply : Server → Server) : World :=
  { w with pending := w.pending ++ [⟨w.now + millis, apply⟩] }

/-- The changes due by a moment, in the order in which they happen. -/
def dueBy (moment : Nat) (pending : List Change) : List Change :=
  (pending.filter fun c => c.due ≤ moment).mergeSort fun a b => a.due ≤ b.due

/-- Time passes. -/
def elapse (w : World) (millis : Nat) : World :=
  let moment := w.now + millis
  { w with
    server := (dueBy moment w.pending).foldl (fun s c => c.apply s) w.server
    now := moment
    pending := w.pending.filter fun c => ¬ c.due ≤ moment }

/-- The steps of a program in a world. Items never outnumber the entries of the tree. -/
def handler : Handler (StateM World) where
  perform r := modifyGet fun w =>
    let (answer, server) := w.server.perform r
    (answer, { w with server })
  report event := modify fun w => { w with log := w.log.push event }
  sleep millis := modify fun w => w.elapse millis
  clock := return (← get).now
  census := return (← get).server.tree.size + 1

/-- What a program comes to in a world, and the world after it. -/
def run {α : Type} (w : World) (p : Program α) : α × World :=
  (Program.run handler p).run w

/-- What an operation comes to in a world, and the world after it. -/
def runOperation {α : Type} (w : World) (t : Operation α) : Except Error α × World := w.run t.run

end World

end JobHierarchy.Memory
