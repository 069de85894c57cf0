import JobHierarchy.Proofs.Traversal
import JobHierarchy.Proofs.Visits
import Mathlib.Data.List.TakeWhile
/-!
# Stopping all builds below an item

The walk keeps a list of pending items and takes the first of them, stops its running builds, and puts the
items in it in front of the others. What is still to visit is the pre-order of the subtrees of the pending
items, one after the other: that list is the invariant, and it loses its head with every item. Stopping
builds changes no path and no kind, so the list can be read off the tree as it was.

The walk ends at the first item whose builds cannot be listed (`abortPending_aborts`). If there is none,
every build at or below the item that was running has been stopped, once and in pre-order
(`abortAllBuilds_stops`).
-/

namespace JobHierarchy

namespace Memory

/-- The build that a request asks to stop. -/
def Call.stop? : Call → Option (ItemPath × Nat)
  | .stopBuild path number => some (path, number)
  | _ => none

/-- The builds that requests have asked to stop, oldest first. -/
def Server.stops (s : Server) : List (ItemPath × Nat) := s.picked Call.stop?

namespace Tree

/-! ## Items to visit -/

variable {tree : Tree}

/-- The items that are still to visit: each pending item, and what is in it. -/
def toVisit (tree : Tree) (pending : List (FolderPath × String)) : List ItemPath :=
  pending.flatMap fun p => tree.within (p.1.segments ++ [p.2])

theorem toVisit_congr {tree' : Tree} (h : ∀ path, tree.contains path = tree'.contains path)
    (pending : List (FolderPath × String)) : tree.toVisit pending = tree'.toVisit pending :=
  List.flatMap_congr fun _ _ => within_congr h _

/-- The first pending item gives way to the items in it. -/
theorem toVisit_cons (wf : tree.WellFormed) {folder : FolderPath} (deeper : FolderPath) {name : String}
    (pending : List (FolderPath × String)) (hdeeper : deeper.segments = folder.segments ++ [name])
    (h : tree.contains (folder.segments ++ [name]) = true) :
    tree.toVisit ((folder, name) :: pending) = (folder.segments ++ [name]) ::
      tree.toVisit ((tree.children (folder.segments ++ [name])).map (fun child => (deeper, child)) ++ pending) := by
  rw [toVisit, List.flatMap_cons, within_eq_cons wf h, toVisit, List.flatMap_append, List.flatMap_map, List.cons_append]
  simp only [hdeeper]

end Tree

namespace Server

/-- The builds at `path` cannot be listed. -/
def hides (s : Server) (path : ItemPath) : Bool := (s.listingFailures.lookup path).isSome

/-- Of the items to visit, those before the first whose builds cannot be listed. -/
def reached (s : Server) (visit : List ItemPath) : List ItemPath := visit.takeWhile fun q => !s.hides q

/-- What a walk over the items to visit comes to: the number of running builds, or the first listing that
fails. -/
def abortOutcome (s : Server) (visit : List ItemPath) : Except Error Nat :=
  match visit.find? s.hides with
  | none => .ok (s.tree.runningBuilds visit).length
  | some q => .error (.transport (s.listingFailures.lookup q) ("cannot list builds of " ++ q.display))

section
variable {s : Server} {q : ItemPath} {node : Node} {visit : List ItemPath}

theorem abortOutcome_cons_hidden (h : s.hides q = true) : s.abortOutcome (q :: visit) =
    .error (.transport (s.listingFailures.lookup q) ("cannot list builds of " ++ q.display)) := by
  rw [abortOutcome, List.find?_cons_of_pos h]

theorem abortOutcome_cons (h : s.hides q = false) (hq : s.tree.get? q = some node) :
    s.abortOutcome (q :: visit) = (s.abortOutcome visit).map (node.running.length + ·) := by
  rw [abortOutcome, abortOutcome, List.find?_cons_of_neg (Bool.not_eq_true _ ▸ h), Tree.runningBuilds_cons hq]
  cases visit.find? s.hides with
  | none => simp [Except.map]
  | some p => rfl

theorem reached_cons_hidden (h : s.hides q = true) : s.reached (q :: visit) = [] :=
  List.takeWhile_cons_of_neg (by simp [h])

theorem reached_cons (h : s.hides q = false) : s.reached (q :: visit) = q :: s.reached visit :=
  List.takeWhile_cons_of_pos (by simp [h])

/-- Where every listing succeeds, every item is reached. -/
theorem reached_eq_self (h : ∀ q ∈ visit, s.hides q = false) : s.reached visit = visit :=
  List.takeWhile_eq_self_iff.2 fun q hq => by rw [h q hq]; rfl

theorem abortOutcome_of_listed (h : ∀ q ∈ visit, s.hides q = false) :
    s.abortOutcome visit = .ok (s.tree.runningBuilds visit).length := by
  have hnone : visit.find? s.hides = none :=
    List.find?_eq_none.2 fun q hq => by rw [h q hq]; exact Bool.false_ne_true
  rw [abortOutcome, hnone]

theorem notMem_reached (h : q ∉ visit) : q ∉ s.reached visit :=
  fun hq => h ((List.takeWhile_sublist _).subset hq)

end

/-- The requests of a walk about one item that it visits. -/
def visitCalls (folder : FolderPath) (name : String) (node : Node) : List Call :=
  findCalls folder name ++ [.listBuilds (folder.segments ++ [name])] ++
    node.numbers.flatMap (stopCalls (folder.segments ++ [name]) node) ++ [.folderView (folder.segments ++ [name])]

theorem stops_lookups (paths : List ItemPath) : (paths.flatMap ItemPath.lookups).filterMap Call.stop? = [] := by
  rw [List.filterMap_flatMap]
  exact List.flatMap_eq_nil_iff.2 fun _ _ => rfl

theorem stops_stopCalls (path : ItemPath) (node : Node) (numbers : List Nat) :
    (numbers.flatMap (stopCalls path node)).filterMap Call.stop? =
      (numbers.filter node.runs).map fun number => (path, number) := by
  induction numbers with
  | nil => rfl
  | cons number rest ih =>
    rw [List.flatMap_cons, List.filterMap_append, ih, stopCalls, List.filter_cons]
    cases node.runs number <;> rfl

theorem stops_visitCalls (folder : FolderPath) (name : String) (node : Node) :
    (visitCalls folder name node).filterMap Call.stop? =
      node.running.map fun number => (folder.segments ++ [name], number) := by
  simp only [visitCalls, findCalls, List.filterMap_append, stops_lookups, stops_stopCalls, Node.running]
  exact List.append_nil _

/-- The server after a visit to one item. -/
def visited (s : Server) (folder : FolderPath) (name : String) (node : Node) : Server :=
  (s.recordAll (visitCalls folder name node)).withNode (folder.segments ++ [name]) node.stopped

/-- A visit to one item is nothing to the others. -/
theorem abortOutcome_visited {s : Server} {folder : FolderPath} {name : String} {node : Node}
    {visit : List ItemPath} (h : folder.segments ++ [name] ∉ visit) :
    (s.visited folder name node).abortOutcome visit = s.abortOutcome visit := by
  have hbuilds : (s.visited folder name node).tree.runningBuilds visit = s.tree.runningBuilds visit :=
    Tree.runningBuilds_insert h
  rw [abortOutcome, abortOutcome, hbuilds]
  rfl

/-! ### The invariant of the walk -/

/-- The walk can go on: each pending item is there, and no item is to be visited twice. -/
structure Visitable (s : Server) (pending : List (FolderPath × String)) : Prop where
  wellFormed : s.tree.WellFormed
  numbered : s.tree.Numbered
  there : ∀ p ∈ pending, s.tree.contains (p.1.segments ++ [p.2]) = true
  nodup : (s.tree.toVisit pending).Nodup

section
variable {s : Server} {folder : FolderPath} {name : String} {node : Node} {pending : List (FolderPath × String)}

theorem contains_visited (h : s.tree.get? (folder.segments ++ [name]) = some node) (q : ItemPath) :
    (s.visited folder name node).tree.contains q = s.tree.contains q :=
  Tree.contains_insert_of_get? h _ q

/-- What is to be visited after an item does not depend on whether it has been visited. -/
theorem toVisit_visited (h : s.tree.get? (folder.segments ++ [name]) = some node)
    (pending : List (FolderPath × String)) :
    (s.visited folder name node).tree.toVisit pending = s.tree.toVisit pending :=
  Tree.toVisit_congr (contains_visited h) pending

/-- A visit leads to the items in the visited one and then to the others. -/
theorem Visitable.visited (hv : s.Visitable ((folder, name) :: pending)) (deeper : FolderPath)
    (hdeeper : deeper.segments = folder.segments ++ [name]) (h : s.tree.get? (folder.segments ++ [name]) = some node) :
    (s.visited folder name node).Visitable
      ((s.tree.children (folder.segments ++ [name])).map (fun child => (deeper, child)) ++ pending) := by
  refine ⟨hv.wellFormed.insert_same h rfl, hv.numbered.insert_stopped h, fun p hp => ?_, ?_⟩
  · rw [contains_visited h]
    rcases List.mem_append.1 hp with hp | hp
    · obtain ⟨child, hchild, rfl⟩ := List.mem_map.1 hp
      rw [hdeeper]
      exact Tree.mem_children.1 hchild
    · exact hv.there p (List.mem_cons_of_mem _ hp)
  · have hnodup := hv.nodup
    rw [Tree.toVisit_cons hv.wellFormed deeper pending hdeeper (hv.there _ List.mem_cons_self)] at hnodup
    rw [toVisit_visited h]
    exact (List.nodup_cons.1 hnodup).2

end

/-- The operation comes to what a walk over the items to visit comes to: the builds of the items that it
reaches have been stopped, in order. -/
def Aborts (s : Server) (visit : List ItemPath) (t : Operation Nat) : Prop :=
  ∃ calls, s.Yields t (s.abortOutcome visit) ((s.recordAll calls).withTree (s.tree.stopAt (s.reached visit))) ∧
    calls.filterMap Call.stop? = s.tree.runningBuilds (s.reached visit)

end Server

end Memory

namespace JobServer

open Memory Memory.Server

variable {server : JobServer} {s s' : Server} {folder : FolderPath} {name : String} {node : Node}

/-! ## One visit -/

/-- The item's builds, its kind, and what is in it: what is left are the items in it and then the others. -/
theorem abortPending_visit (deeper : FolderPath) {fuel : Nat} {pending : List (FolderPath × String)}
    {x : Except Error Nat} (wf : s.tree.WellFormed) (hn : IsItemName name)
    (hdeeper : deeper.segments = folder.segments ++ [name]) (h : s.tree.get? (folder.segments ++ [name]) = some node)
    (hlen : node.builds.length < UInt32.size) (hf : s.listingFailures.lookup (folder.segments ++ [name]) = none)
    (hrest : (s.visited folder name node).Yields (server.abortPending fuel
      ((s.tree.children (folder.segments ++ [name])).map (fun child => (deeper, child)) ++ pending)) x s') :
    s.Yields (server.abortPending (fuel + 1) ((folder, name) :: pending)) (x.map (node.running.length + ·)) s' := by
  have hvisit := visit_listed server deeper wf hn hdeeper h hf
  rw [Node.listed_eq_numbers hlen, Node.stopAmong_numbers] at hvisit
  rw [abortPending_succ]
  -- the sum of what was stopped here and what is stopped in the rest
  cases x with
  | ok n => exact hvisit.bind (hrest.bind (yields_pure _ _))
  | error e => exact hvisit.bind (hrest.bind_error _)

/-- A visit, and the rest of the walk after it. -/
theorem aborts_visit {fuel : Nat} {pending : List (FolderPath × String)} {visit : List ItemPath} (deeper : FolderPath)
    (wf : s.tree.WellFormed) (hnum : s.tree.Numbered) (hn : IsItemName name)
    (hdeeper : deeper.segments = folder.segments ++ [name]) (h : s.tree.get? (folder.segments ++ [name]) = some node)
    (hf : s.hides (folder.segments ++ [name]) = false) (hnot : folder.segments ++ [name] ∉ visit)
    (hrest : (s.visited folder name node).Aborts visit (server.abortPending fuel
      ((s.tree.children (folder.segments ++ [name])).map (fun child => (deeper, child)) ++ pending))) :
    s.Aborts ((folder.segments ++ [name]) :: visit) (server.abortPending (fuel + 1) ((folder, name) :: pending)) := by
  obtain ⟨calls, hy, hcalls⟩ := hrest
  have htree : (s.visited folder name node).tree.stopAt ((s.visited folder name node).reached visit) =
      s.tree.stopAt ((folder.segments ++ [name]) :: s.reached visit) :=
    Tree.stopAt_insert h (notMem_reached hnot)
  have hbuilds : (s.visited folder name node).tree.runningBuilds ((s.visited folder name node).reached visit) =
      s.tree.runningBuilds (s.reached visit) :=
    Tree.runningBuilds_insert (notMem_reached hnot)
  have hlisted : s.listingFailures.lookup (folder.segments ++ [name]) = none :=
    Option.isNone_iff_eq_none.1 (Option.isSome_eq_false_iff.1 hf)
  have hstep := abortPending_visit deeper wf hn hdeeper h (Tree.numbered_iff.1 hnum _ _ h) hlisted hy
  rw [abortOutcome_visited hnot, htree] at hstep
  refine ⟨visitCalls folder name node ++ calls, ?_, ?_⟩
  · rw [abortOutcome_cons hf h, reached_cons hf, ← recordAll_recordAll]
    exact hstep
  · rw [reached_cons hf, Tree.runningBuilds_cons h, List.filterMap_append, stops_visitCalls, hcalls, hbuilds]

/-- The walk ends at an item whose builds cannot be listed. -/
theorem aborts_hidden {fuel : Nat} {pending : List (FolderPath × String)} (wf : s.tree.WellFormed)
    (hn : IsItemName name) (hc : s.tree.contains (folder.segments ++ [name]) = true)
    (hf : s.hides (folder.segments ++ [name]) = true)
    (visit : List ItemPath) :
    s.Aborts ((folder.segments ++ [name]) :: visit) (server.abortPending (fuel + 1) ((folder, name) :: pending)) := by
  obtain ⟨status, hstatus⟩ := Option.isSome_iff_exists.1 hf
  have hvisit := visit_hidden server wf hn hc hstatus
  rw [Aborts, abortPending_succ, abortOutcome_cons_hidden hf, reached_cons_hidden hf, Tree.stopAt_nil, hstatus]
  refine ⟨_, hvisit.bind_error _, ?_⟩
  rw [findCalls, List.filterMap_append, List.filterMap_append, stops_lookups]
  rfl

/-! ## The whole walk -/

theorem abortPending_aborts (server : JobServer) : ∀ (fuel : Nat) (pending : List (FolderPath × String)) (s : Server),
    s.Visitable pending → (s.tree.toVisit pending).length ≤ fuel →
    s.Aborts (s.tree.toVisit pending) (server.abortPending fuel pending)
  | fuel, [], s, _, _ => by
    have hs : (s.recordAll []).withTree (s.tree.stopAt []) = s := by rw [Tree.stopAt_nil, recordAll_nil, withTree]
    rw [abortPending]
    exact ⟨[], hs.symm ▸ s.yields_pure 0, rfl⟩
  | 0, (folder, name) :: pending, s, hv, hfuel => by
    have hc := hv.there _ List.mem_cons_self
    have hlen := Tree.toVisit_cons hv.wellFormed ⟨folder.segments ++ [name], hv.wellFormed.named _ hc⟩ pending rfl hc
    rw [hlen, List.length_cons] at hfuel
    omega
  | fuel + 1, (folder, name) :: pending, s, hv, hfuel => by
    have hc := hv.there _ List.mem_cons_self
    have hnamed := hv.wellFormed.named _ hc
    have hn : IsItemName name := hnamed name (by simp)
    obtain ⟨node, hnode⟩ := Tree.contains_iff.1 hc
    let deeper : FolderPath := ⟨folder.segments ++ [name], hnamed⟩
    have hnodup := hv.nodup
    rw [Tree.toVisit_cons hv.wellFormed deeper pending rfl hc] at hfuel hnodup ⊢
    cases hf : s.hides (folder.segments ++ [name]) with
    | true => exact aborts_hidden hv.wellFormed hn hc hf _
    | false =>
      have ih := abortPending_aborts server fuel _ _ (hv.visited deeper rfl hnode)
        (by rw [toVisit_visited hnode]; simpa using hfuel)
      rw [toVisit_visited hnode] at ih
      exact aborts_visit deeper hv.wellFormed hv.numbered hn rfl hnode hf (List.nodup_cons.1 hnodup).1 ih

/-- The walk from one item visits its subtree in pre-order. -/
theorem abortAllBuilds_aborts (server : JobServer) (wf : s.tree.WellFormed) (hnum : s.tree.Numbered)
    (hthere : s.tree.contains (folder.segments ++ [name]) = true) :
    s.Aborts (s.tree.preorder (folder.segments ++ [name])) (server.abortAllBuilds folder name) := by
  have hvisit : s.tree.toVisit [(folder, name)] = s.tree.within (folder.segments ++ [name]) :=
    List.flatMap_singleton _ _
  have hsize := s.tree.length_within_le (folder.segments ++ [name])
  have hv : s.Visitable [(folder, name)] := by
    refine ⟨wf, hnum, fun p hp => ?_, ?_⟩
    · rw [List.mem_singleton.1 hp]; exact hthere
    · rw [hvisit]; exact s.tree.within_nodup _
  obtain ⟨calls, hy, hcalls⟩ := abortPending_aborts server (s.tree.size + 1) _ s hv (by rw [hvisit]; omega)
  rw [hvisit, ← Tree.preorder_eq_within wf _ (by simp)] at hy hcalls
  exact ⟨calls, s.yields_census.bind hy, hcalls⟩

theorem mem_preorder (wf : s.tree.WellFormed) {path : ItemPath} (hp : path ≠ []) (q : ItemPath) :
    q ∈ s.tree.preorder path ↔ s.tree.contains q = true ∧ path <+: q := by
  rw [Tree.preorder_eq_within wf path hp, Tree.mem_within]

/-- **All builds at or below an item are stopped**: the walk ends with the number of those that ran, each
of them is aborted, and nothing else about any item has changed; the requests to stop are for exactly those
builds, each once, the items in pre-order and the newest build of an item first. -/
theorem abortAllBuilds_stops (server : JobServer) (folder : FolderPath) (name : String) (wf : s.tree.WellFormed)
    (hnum : s.tree.Numbered) (hthere : s.tree.contains (folder.segments ++ [name]) = true)
    (hlisted : ∀ q, s.tree.contains q = true → folder.segments ++ [name] <+: q → s.listingFailures.lookup q = none) :
    ∃ builds, builds = s.tree.runningBuilds (s.tree.preorder (folder.segments ++ [name])) ∧
      builds.Nodup ∧
      (∀ q number, (q, number) ∈ builds ↔ folder.segments ++ [name] <+: q ∧
        ∃ node, s.tree.get? q = some node ∧ 0 < number ∧ node.builds[number - 1]? = some none) ∧
      ∃ s', s.Yields (server.abortAllBuilds folder name) (.ok builds.length) s' ∧
        (∀ q, s'.tree.get? q =
          if folder.segments ++ [name] <+: q then (s.tree.get? q).map Node.stopped else s.tree.get? q) ∧
        s'.stops = s.stops ++ builds := by
  have hne : folder.segments ++ [name] ≠ [] := by simp
  have hmem := mem_preorder wf hne
  have hnodup : (s.tree.preorder (folder.segments ++ [name])).Nodup := by
    rw [Tree.preorder_eq_within wf _ hne]
    exact s.tree.within_nodup _
  refine ⟨_, rfl, Tree.runningBuilds_nodup hnodup, fun q number => ?_, ?_⟩
  · rw [Tree.mem_runningBuilds, hmem]
    constructor
    · rintro ⟨⟨-, hpre⟩, hnode⟩
      exact ⟨hpre, hnode⟩
    · rintro ⟨hpre, node, hnode⟩
      exact ⟨⟨Tree.contains_iff.2 ⟨node, hnode.1⟩, hpre⟩, node, hnode⟩
  · -- no listing fails, so every item is reached
    have hshown : ∀ q ∈ s.tree.preorder (folder.segments ++ [name]), s.hides q = false := by
      intro q hq
      obtain ⟨hc, hpre⟩ := (hmem q).1 hq
      rw [hides, hlisted q hc hpre]
      rfl
    obtain ⟨calls, hy, hcalls⟩ := abortAllBuilds_aborts server wf hnum hthere
    rw [abortOutcome_of_listed hshown, reached_eq_self hshown] at hy
    rw [reached_eq_self hshown] at hcalls
    refine ⟨_, hy, fun q => ?_, ?_⟩
    · have hstop := s.tree.get?_stopAt (s.tree.preorder (folder.segments ++ [name])) q
      refine hstop.trans ?_
      by_cases hpre : folder.segments ++ [name] <+: q
      · cases hc : s.tree.contains q with
        | true => rw [if_pos ((hmem q).2 ⟨hc, hpre⟩), if_pos hpre]
        | false =>
          rw [Tree.contains_eq_false_iff.1 hc]
          simp
      · rw [if_neg fun hq => hpre ((hmem q).1 hq).2, if_neg hpre]
    · rw [← hcalls]
      exact s.picked_recordAll _ calls

/-- Builds of a pipeline, of a branch in it and of a job beside it; that job's builds cannot be listed. -/
def busy : Server :=
  { Server.empty with
    tree := (((Tree.empty.insert ["ci"] (.ofKind .folder)).insert
      ["ci", "app"] ⟨.container, none, [none, some .success, none]⟩).insert
      ["ci", "app", "50 %"] ⟨.job, some "<flow/>", [some .failure, none]⟩).insert
      ["ci", "zoo"] ⟨.job, none, [none]⟩
    listingFailures := [(["ci", "zoo"], 500)] }

theorem abortAllBuilds_stops_busy :
    busy.tree.WellFormed ∧ busy.tree.Numbered ∧ busy.tree.contains ["ci", "app"] = true ∧
      (∀ q, busy.tree.contains q = true → ["ci", "app"] <+: q → busy.listingFailures.lookup q = none) ∧
      ∃ s', busy.Yields ((ofUrl Memory.baseUrl).abortAllBuilds ⟨["ci"], by decide⟩ "app") (.ok 3) s' ∧
        s'.tree.get? ["ci", "app", "50 %"] = some ⟨.job, some "<flow/>", [some .failure, some .aborted]⟩ ∧
        s'.tree.get? ["ci", "zoo"] = some ⟨.job, none, [none]⟩ ∧
        s'.stops = [(["ci", "app"], 3), (["ci", "app"], 1), (["ci", "app", "50 %"], 2)] := by
  have wf : busy.tree.WellFormed := by decide
  have hthere : busy.tree.contains ["ci", "app"] = true := by decide
  have hwithin : ∀ q ∈ busy.tree.within ["ci", "app"], busy.listingFailures.lookup q = none := by decide
  have hlisted : ∀ q, busy.tree.contains q = true → ["ci", "app"] <+: q → busy.listingFailures.lookup q = none :=
    fun q hc hpre => hwithin q (Tree.mem_within.2 ⟨hc, hpre⟩)
  have hnum : busy.tree.Numbered := by decide
  obtain ⟨builds, hbuilds, -, -, s', hy, hnodes, hstops⟩ :=
    abortAllBuilds_stops (ofUrl Memory.baseUrl) ⟨["ci"], by decide⟩ "app" wf hnum hthere hlisted
  have hthree : builds = [(["ci", "app"], 3), (["ci", "app"], 1), (["ci", "app", "50 %"], 2)] := by
    rw [hbuilds, Tree.preorder_eq_within wf _ (by simp)]
    decide
  rw [hthree] at hy hstops
  refine ⟨wf, hnum, hthere, hlisted, s', hy, ?_, ?_, hstops⟩
  · rw [hnodes]; decide
  · rw [hnodes]; decide

end JobServer

end JobHierarchy
