import JobHierarchy.Memory.Arrange
import JobHierarchy.Proofs.Alterations
/-!
# Histories of a server

A server that starts empty is well formed for ever: after any row of requests, with whatever handles and
whether they succeed or not, and whatever it is told to fail in between, every item has a path of item names
and lies in items that can hold others. So every item can be found from the top (`Server.follow_closed`).
-/

namespace JobHierarchy

namespace Memory

/-- What can happen to a server: a request, or a change to what it is told to do. -/
inductive Event where
  | request (r : Request)
  | failDelete (text : String) (status : Nat)
  | failFolder (text : String) (status : Nat)
  | failListBuilds (text : String) (status : Nat)
  | clearFailures
  | raceFolder (text : String)
  | setTriggeredResult (result : Option BuildResult)
  deriving DecidableEq, Repr

/-- The name that a new item is given. -/
def Event.newName? : Event → Option String
  | .request r => r.newName?
  | _ => none

namespace Server

variable {s : Server}

/-- The server after an event. -/
def after (s : Server) : Event → Server
  | .request r => (s.perform r).2
  | .failDelete text status => s.failDelete text status
  | .failFolder text status => s.failFolder text status
  | .failListBuilds text status => s.failListBuilds text status
  | .clearFailures => s.clearFailures
  | .raceFolder text => s.raceFolder text
  | .setTriggeredResult result => s.setTriggeredResult result

/-- The server after events, one after the other. -/
def follow (s : Server) (events : List Event) : Server := events.foldl after s

theorem after_wellFormed (wf : s.tree.WellFormed) {e : Event}
    (hn : ∀ name, e.newName? = some name → IsItemName name) : (s.after e).tree.WellFormed := by
  cases e with
  | request r => exact perform_wellFormed wf hn
  | failDelete text status => exact wf
  | failFolder text status => exact wf
  | failListBuilds text status => exact wf
  | clearFailures => exact wf
  | raceFolder text => exact wf
  | setTriggeredResult result => exact wf

theorem follow_wellFormed (wf : s.tree.WellFormed) {events : List Event}
    (hn : ∀ e ∈ events, ∀ name, e.newName? = some name → IsItemName name) :
    (s.follow events).tree.WellFormed := by
  induction events generalizing s with
  | nil => exact wf
  | cons e events ih =>
    refine ih (after_wellFormed wf (hn e List.mem_cons_self)) ?_
    intro e' he'
    exact hn e' (List.mem_cons_of_mem _ he')

end Server

theorem Tree.wellFormed_empty : Tree.empty.WellFormed := by
  have hno : ∀ path, Tree.empty.contains path ≠ true := fun path h => Bool.noConfusion h
  exact ⟨fun p hp => absurd hp (hno p), fun p hp => absurd hp (hno p), fun p hp => absurd hp (hno p)⟩

/-- The path of an item is a folder path and a name behind it. -/
theorem Tree.WellFormed.exists_parent {tree : Tree} (wf : tree.WellFormed) {path : ItemPath}
    (h : tree.contains path = true) :
    ∃ (parent : FolderPath) (name : String), path = parent.segments ++ [name] ∧ IsItemName name := by
  obtain ⟨above, name, rfl⟩ := (List.eq_nil_or_concat path).resolve_left (wf.ne_nil path h)
  rw [List.concat_eq_append] at h ⊢
  obtain ⟨ha, hn⟩ := ItemPath.named_append.1 (wf.named _ h)
  exact ⟨⟨above, ha⟩, name, rfl, ItemPath.named_singleton.1 hn⟩

end Memory

namespace JobServer

open Memory Memory.Server

variable {s : Server}

/-- Looking for an item from the top, folder by folder. -/
def lookUp (server : JobServer) (parent : FolderPath) (name : String) : Operation (Option JobRef) := do
  let scope ← server.resolve parent false
  Operation.ask (.getJob scope name)

/-- In a well-formed hierarchy every item is found in its folder. -/
theorem lookUp_yields (server : JobServer) (wf : s.tree.WellFormed) {parent : FolderPath} {name : String}
    (hn : IsItemName name) (h : s.tree.contains (parent.segments ++ [name]) = true) :
    s.Yields (server.lookUp parent name) (.ok (some ⟨parent.handle?, name⟩))
      (s.recordAll (findCalls parent name)) := by
  have hholds : ∀ q ∈ parent.prefixes, s.tree.holds q = true := fun q hq => wf.holds_of_mem_downFrom h hq
  have hwalk := resolve_yields server false hholds
  have hget := (s.recordAll (parent.prefixes.flatMap ItemPath.lookups)).yields_getJob parent.named hn
  rw [recordAll_tree, if_pos h, recordAll_recordAll, ← parent.handle?_eq] at hget
  exact hwalk.bind hget

/-- **A hierarchy never has an item without its folders.** From an empty server on, after any events in which
new items are given item names, the tree is well formed; so for every item the walk to its folder succeeds,
and the item is found in it. -/
theorem follow_closed (server : JobServer) (events : List Event)
    (hn : ∀ e ∈ events, ∀ name, e.newName? = some name → IsItemName name) :
    (Server.empty.follow events).tree.WellFormed ∧
      ∀ path, (Server.empty.follow events).tree.contains path = true →
        ∃ (parent : FolderPath) (name : String), path = parent.segments ++ [name] ∧
          (Server.empty.follow events).Yields (server.lookUp parent name) (.ok (some ⟨parent.handle?, name⟩))
            ((Server.empty.follow events).recordAll (findCalls parent name)) := by
  have wf := follow_wellFormed (s := Server.empty) Tree.wellFormed_empty hn
  refine ⟨wf, ?_⟩
  intro path h
  obtain ⟨parent, name, rfl, hname⟩ := wf.exists_parent h
  exact ⟨parent, name, rfl, lookUp_yields server wf hname h⟩

/-- A pipeline is made, cannot be deleted, goes with its folder, and is still asked for by its old handle. -/
def rebuilt : List Event := [
  .request (.submitFolder Memory.baseUrl "ci" "" none),
  .request (.createJob (some (handleOf ["ci"])) "app" "WorkflowMultiBranchProject"),
  .request (.createJob (some (handleOf ["ci", "app"])) "50 %" ""),
  .failDelete "ci/app" 500,
  .request (.deleteJob (some (handleOf ["ci"])) "app"),
  .clearFailures,
  .request (.deleteJob none "ci"),
  .request (.createJob (some (handleOf ["ci", "app"])) "late" ""),
  .raceFolder "ci",
  .request (.submitFolder Memory.baseUrl "ci" "" none),
  .request (.submitFolder (urlOf ["ci"]) "a+b" "" none)]

theorem follow_closed_rebuilt :
    (∀ e ∈ rebuilt, ∀ name, e.newName? = some name → IsItemName name) ∧
      (Server.empty.follow rebuilt).tree.WellFormed ∧
      (Server.empty.follow rebuilt).tree.keys = [["ci"], ["ci", "a+b"]] ∧
      ∃ (parent : FolderPath) (name : String), ["ci", "a+b"] = parent.segments ++ [name] ∧
        (Server.empty.follow rebuilt).Yields ((ofUrl Memory.baseUrl).lookUp parent name)
          (.ok (some ⟨parent.handle?, name⟩)) ((Server.empty.follow rebuilt).recordAll (findCalls parent name)) := by
  have hn : ∀ e ∈ rebuilt, ∀ name, e.newName? = some name → IsItemName name := by
    have hnames : ∀ e ∈ rebuilt, ∀ name ∈ e.newName?.toList, IsItemName name := by decide
    intro e he name hname
    exact hnames e he name (by rw [hname]; exact List.mem_singleton_self name)
  have hkeys : (Server.empty.follow rebuilt).tree.keys = [["ci"], ["ci", "a+b"]] := by decide +kernel
  obtain ⟨wf, hfound⟩ := follow_closed (ofUrl Memory.baseUrl) rebuilt hn
  have hthere : (Server.empty.follow rebuilt).tree.contains ["ci", "a+b"] = true := by
    rw [← Tree.mem_keys, hkeys]
    decide
  exact ⟨hn, wf, hkeys, hfound _ hthere⟩

end JobServer

end JobHierarchy
