import JobHierarchy.Proofs.Items
import JobHierarchy.Proofs.PathTexts
import JobHierarchy.Proofs.Resolutions
import JobHierarchy.Proofs.Waiting
/-!
# Triggering builds

A build is triggered of a job that has been found, so a fault on the way down to it comes first, and nothing is made on
the way. A folder is found like a job, and the request is what it refuses. There is no more to go wrong, and then one
build is put behind the others of one item (`Server.Triggers`). It is the one with the highest number, so it is also the
one whose result is read next (`JobServer.build_triggers`).
-/

namespace JobHierarchy

/-- An item in a folder is not on the way down to the folder. -/
theorem FolderPath.ne_item_of_mem_prefixes {folder : FolderPath} {name : String} {q : Memory.ItemPath}
    (h : q ∈ folder.prefixes) : q ≠ folder.segments ++ [name] := by
  rintro rfl
  exact Memory.ItemPath.not_item_prefix _ _ (FolderPath.mem_prefixes.1 h).2

namespace Memory

/-! ## What there is to find -/

namespace Tree

variable {tree : Tree} {folder : FolderPath} {name : String} {e : Error}

/-- Something is wrong on the way to a job, or there is nothing at its end. -/
theorem findJob_eq_error_cases (h : tree.findJob folder name = .error e) :
    tree.Blocks folder e ∨ (∀ q ∈ folder.prefixes, tree.holds q = true) ∧
      tree.contains (folder.segments ++ [name]) = false ∧ e = .notFound "job" (folder.displayItem name) := by
  unfold findJob at h
  cases hgap : tree.gap? folder.prefixes with
  | some q =>
    rw [hgap] at h
    cases h
    exact .inl (blocks_of_gap? hgap)
  | none =>
    rw [hgap] at h
    cases hc : tree.contains (folder.segments ++ [name]) with
    | true =>
      rw [hc] at h
      cases h
    | false =>
      rw [hc] at h
      cases h
      exact .inr ⟨gap?_eq_none_iff.1 hgap, rfl, rfl⟩

theorem createFolder_not_mem_findJobCalls (path : ItemPath) : .createFolder path ∉ tree.findJobCalls folder name := by
  unfold findJobCalls
  intro h
  rcases List.mem_append.1 h with h | h
  · obtain ⟨q, -, h | h⟩ := exists_of_mem_walkCalls h <;> cases h
  · split at h
    · cases List.mem_singleton.1 h
    · cases h

theorem createFolder_not_mem_triggerCalls (path : ItemPath) :
    .createFolder path ∉ tree.findJobCalls folder name ++ [.triggerBuild (folder.segments ++ [name])] := by
  intro h
  rcases List.mem_append.1 h with h | h
  · exact createFolder_not_mem_findJobCalls path h
  · cases List.mem_singleton.1 h

end Tree

namespace Server

variable {s : Server} {above : ItemPath} {name : String} {scope : Option FolderHandle} {node : Node}

/-- A folder has no builds. -/
theorem yields_triggerBuild_folder (s : Server) (hs : scopePath scope = above) (hn : IsItemName name)
    (h : s.tree.get? (above ++ [name]) = some node) (hk : node.kind = .folder) :
    s.Yields (Operation.ask (.triggerBuild ⟨scope, name⟩))
      (.error (.transport (some 405) ((above ++ [name]).display ++ " is not buildable")))
      (s.recordAll [.triggerBuild (above ++ [name])]) := by
  have hask := s.yields_ask (.triggerBuild ⟨scope, name⟩)
  have hnode : (s.recordAll [.triggerBuild (above ++ [name])]).node (above ++ [name]) = .ok node := by
    rw [Server.node, recordAll_tree, h]
  simp only [perform, answer, callOf, jobPath, hs, ItemPath.item_eq hn, record_eq_recordAll, triggerBuild, hnode, bind,
    Except.bind, if_pos hk] at hask
  exact hask

/-- The build that comes behind the others has the next number. -/
theorem result_appended {path : ItemPath} (newest : Option BuildResult)
    (h : s.tree.get? path = some { node with builds := node.builds ++ [newest] }) :
    s.result path (node.builds.length + 1) = .ok newest := by
  have hn : node.builds.length + 1 ∈ Node.numbers { node with builds := node.builds ++ [newest] } :=
    Node.mem_numbers.2 ⟨Nat.succ_pos _, by simp⟩
  rw [result_eq h hn, Nat.add_sub_cancel, List.getElem?_concat_length, Option.join_some]

/-! ## What triggering comes to -/

/-- What is left of the tree of a server, and what the caller is told, when a build of an item is triggered. -/
structure Triggered (s : Server) (folder : FolderPath) (name : String) (x : Except Error Unit) (tree : Tree) :
    Prop where
  succeeds_iff : x = .ok () ↔ (∀ q ∈ folder.prefixes, s.tree.holds q = true) ∧
    ∃ node, s.tree.get? (folder.segments ++ [name]) = some node ∧ node.kind ≠ .folder
  /-- There is one build more, its number is the next one, and no other item has changed. -/
  appended : x = .ok () → ∃ node, s.tree.get? (folder.segments ++ [name]) = some node ∧
    tree.get? (folder.segments ++ [name]) = some { node with builds := node.builds ++ [s.triggeredResult] } ∧
    (s.withTree tree).result (folder.segments ++ [name]) (node.builds.length + 1) = .ok s.triggeredResult ∧
    ∀ q, q ≠ folder.segments ++ [name] → tree.get? q = s.tree.get? q
  unchanged : ∀ e, x = .error e → tree = s.tree
  /-- The way down is looked at first, then whether there is an item, and its kind last. -/
  faulty : ∀ e, x = .error e → s.tree.Blocks folder e ∨ (∀ q ∈ folder.prefixes, s.tree.holds q = true) ∧
    (s.tree.contains (folder.segments ++ [name]) = false ∧ e = .notFound "job" (folder.displayItem name) ∨
      (∃ node, s.tree.get? (folder.segments ++ [name]) = some node ∧ node.kind = .folder) ∧
        e = .transport (some 405) (ItemPath.display (folder.segments ++ [name]) ++ " is not buildable"))

section
variable {folder : FolderPath} {e : Error}

theorem triggered_error
    (hno : (∀ q ∈ folder.prefixes, s.tree.holds q = true) →
      ∀ node, s.tree.get? (folder.segments ++ [name]) = some node → node.kind = .folder)
    (hfault : s.tree.Blocks folder e ∨ (∀ q ∈ folder.prefixes, s.tree.holds q = true) ∧
      (s.tree.contains (folder.segments ++ [name]) = false ∧ e = .notFound "job" (folder.displayItem name) ∨
        (∃ node, s.tree.get? (folder.segments ++ [name]) = some node ∧ node.kind = .folder) ∧
          e = .transport (some 405) (ItemPath.display (folder.segments ++ [name]) ++ " is not buildable"))) :
    s.Triggered folder name (.error e) s.tree where
  succeeds_iff := ⟨fun h => (by cases h), fun ⟨hq, node, hnode, hk⟩ => absurd (hno hq node hnode) hk⟩
  appended := fun h => by cases h
  unchanged := fun _ _ => rfl
  faulty := fun e' h => by
    cases h
    exact hfault

theorem triggered_ok (hq : ∀ q ∈ folder.prefixes, s.tree.holds q = true)
    (h : s.tree.get? (folder.segments ++ [name]) = some node) (hk : node.kind ≠ .folder) :
    s.Triggered folder name (.ok ()) (s.tree.insert (folder.segments ++ [name])
      { node with builds := node.builds ++ [s.triggeredResult] }) where
  succeeds_iff := ⟨fun _ => ⟨hq, node, h, hk⟩, fun _ => rfl⟩
  appended := fun _ => by
    have hthere := Tree.get?_insert_self s.tree (folder.segments ++ [name])
      { node with builds := node.builds ++ [s.triggeredResult] }
    exact ⟨node, h, hthere, result_appended _ hthere, fun q hne => Tree.get?_insert_ne _ _ hne⟩
  unchanged := fun _ h => by cases h
  faulty := fun _ h => by cases h

end

/-- The operation triggers a build of an item and makes no folder. The build is then the one that the item's result is
read from, where builds can be listed and numbered. -/
def Triggers (s : Server) (server : JobServer) (folder : FolderPath) (name : String) (t : Operation Unit) : Prop :=
  ∃ x calls tree, s.Yields t x ((s.recordAll calls).withTree tree) ∧
    (∀ path, .createFolder path ∉ calls) ∧ s.Triggered folder name x tree ∧
    (x = .ok () → s.listingFailures.lookup (folder.segments ++ [name]) = none →
      (∀ node, tree.get? (folder.segments ++ [name]) = some node → node.builds.length < UInt32.size) →
      ∃ read, ((s.recordAll calls).withTree tree).Yields (server.lastBuildResult folder name) (.ok s.triggeredResult)
        ((s.recordAll (calls ++ read)).withTree tree))

end Server

end Memory

namespace JobServer

open Memory Memory.Server

variable {s : Server} {folder : FolderPath} {name : String} {node : Node}

/-! ## The ways it can go -/

/-- A job that cannot be found is not built. -/
theorem build_notFound (server : JobServer) {e : Error} (hn : IsItemName name)
    (h : s.tree.findJob folder name = .error e) : s.Triggers server folder name (server.build folder name) := by
  have hfind := findJob_looks server s folder hn
  rw [h] at hfind
  have hno : (∀ q ∈ folder.prefixes, s.tree.holds q = true) →
      ∀ node, s.tree.get? (folder.segments ++ [name]) = some node → node.kind = .folder := by
    intro hq node hnode
    rw [Tree.findJob_eq_ok_iff.2 ⟨hq, Tree.contains_iff.2 ⟨node, hnode⟩, rfl⟩] at h
    cases h
  refine ⟨.error e, s.tree.findJobCalls folder name, s.tree, hfind.bind_error _,
    Tree.createFolder_not_mem_findJobCalls, triggered_error hno ?_, fun h => by cases h⟩
  exact (Tree.findJob_eq_error_cases h).imp_right fun ⟨hq, hc, he⟩ => ⟨hq, .inl ⟨hc, he⟩⟩

section
variable (server : JobServer) (hn : IsItemName name) (hq : ∀ q ∈ folder.prefixes, s.tree.holds q = true)
  (h : s.tree.get? (folder.segments ++ [name]) = some node)
include hn hq h

theorem findJob_found : s.Yields (server.findJob folder name) (.ok ⟨scopeOf folder.segments, name⟩)
    (s.recordAll (s.tree.findJobCalls folder name)) := by
  have hfind := findJob_looks server s folder hn
  rw [Tree.findJob_eq_ok_iff.2 ⟨hq, Tree.contains_iff.2 ⟨node, h⟩, rfl⟩] at hfind
  exact hfind

/-- A folder is found, and not built. -/
theorem build_folder (hk : node.kind = .folder) : s.Triggers server folder name (server.build folder name) := by
  have htrigger := yields_triggerBuild_folder (s.recordAll (s.tree.findJobCalls folder name))
    (scopePath_scopeOf folder.named) hn h hk
  rw [recordAll_recordAll] at htrigger
  have hno : ∀ node', s.tree.get? (folder.segments ++ [name]) = some node' → node'.kind = .folder := by
    intro node' hnode'
    rw [h] at hnode'
    cases hnode'
    exact hk
  exact ⟨_, s.tree.findJobCalls folder name ++ [.triggerBuild (folder.segments ++ [name])], s.tree,
    (findJob_found server hn hq h).bind (htrigger.bind_error _), Tree.createFolder_not_mem_triggerCalls,
    triggered_error (fun _ => hno) (.inr ⟨hq, .inr ⟨⟨node, h, hk⟩, rfl⟩⟩), fun h => by cases h⟩

/-- The newest build of a job is the one that is read. -/
theorem lastBuildResult_newest (hf : s.listingFailures.lookup (folder.segments ++ [name]) = none)
    (hlen : node.builds.length < UInt32.size) {newest : Option BuildResult}
    (hnewest : node.builds.getLast? = some newest) :
    ∃ read, s.Yields (server.lastBuildResult folder name) (.ok newest) (s.recordAll read) := by
  have hread := lastBuildResult_listed hn (findJob_found server hn hq h) hf h hlen
  rw [hnewest] at hread
  exact hread

/-- Whatever is not a folder gets one build more. -/
theorem build_item (hk : node.kind ≠ .folder) : s.Triggers server folder name (server.build folder name) := by
  have htrigger := yields_triggerBuild (s.recordAll (s.tree.findJobCalls folder name))
    (scopePath_scopeOf folder.named) hn h hk
  rw [recordAll_recordAll] at htrigger
  refine ⟨_, s.tree.findJobCalls folder name ++ [.triggerBuild (folder.segments ++ [name])], _,
    (findJob_found server hn hq h).bind (htrigger.bind (yields_report _ _ _)), Tree.createFolder_not_mem_triggerCalls,
    triggered_ok hq h hk, fun _ hf hlen => ?_⟩
  have hthere := Tree.get?_insert_self s.tree (folder.segments ++ [name])
    { node with builds := node.builds ++ [s.triggeredResult] }
  -- the way down to the item is as it was
  have hq' : ∀ q ∈ folder.prefixes, (s.tree.insert (folder.segments ++ [name])
      { node with builds := node.builds ++ [s.triggeredResult] }).holds q = true :=
    fun q hmem => (Tree.holds_insert_ne _ _ (FolderPath.ne_item_of_mem_prefixes hmem)).trans (hq q hmem)
  obtain ⟨read, hread⟩ := lastBuildResult_newest (s := (s.recordAll _).withTree _) server hn hq' hthere hf
    (hlen _ hthere) List.getLast?_concat
  refine ⟨read, ?_⟩
  rw [recordAll_withTree, recordAll_recordAll] at hread
  exact hread

end

/-- **A build is added to one item or to none.** It is triggered exactly if the way down can be walked and the item at
its end is no folder. Then it is the newest build of the item and nothing else has changed; otherwise nothing has, and
the error says what was wrong. A branch is built like a job in the folder one name deeper. -/
theorem build_triggers (server : JobServer) (s : Server) (folder : FolderPath) :
    (∀ name, IsItemName name → s.Triggers server folder name (server.build folder name)) ∧
    ∀ pipeline branch, IsItemName pipeline → IsItemName branch →
      ∃ deeper : FolderPath, deeper.segments = folder.segments ++ [pipeline] ∧
        s.Triggers server deeper branch (server.buildBranch folder pipeline branch) := by
  have hbuild : ∀ (folder : FolderPath) name, IsItemName name →
      s.Triggers server folder name (server.build folder name) := by
    intro folder name hn
    cases hfind : s.tree.findJob folder name with
    | error e => exact build_notFound server hn hfind
    | ok job =>
      obtain ⟨hq, hc, -⟩ := Tree.findJob_eq_ok_iff.1 hfind
      obtain ⟨node, hnode⟩ := Tree.contains_iff.1 hc
      by_cases hk : node.kind = .folder
      · exact build_folder server hn hq hnode hk
      · exact build_item server hn hq hnode hk
  refine ⟨hbuild folder, fun pipeline branch hp hb => ?_⟩
  obtain ⟨deeper, hdeeper⟩ := FolderPath.exists_append_iff.2 hp
  refine ⟨deeper, (FolderPath.append_eq_ok_iff.1 hdeeper).2, ?_⟩
  rw [buildBranch, hdeeper]
  exact hbuild deeper branch hb

/-- A branch whose only build runs, in a pipeline in a folder. -/
def workshop : Server :=
  { Server.empty with
    tree := ((Tree.empty.insert ["c i"] (.ofKind .folder)).insert ["c i", "app"] (.ofKind .container)).insert
      ["c i", "app", "main"] ⟨.job, none, [none]⟩
    triggeredResult := some .unstable }

theorem build_triggers_workshop : IsItemName "c i" ∧ IsItemName "app" ∧ IsItemName "main" ∧
    (∃ calls tree, workshop.Yields
        ((ofUrl Memory.baseUrl).buildBranch ⟨["c i"], by decide⟩ "app" "main") (.ok ())
        ((workshop.recordAll calls).withTree tree) ∧
      tree.get? ["c i", "app", "main"] = some ⟨.job, none, [none, some .unstable]⟩ ∧
      tree.get? ["c i", "app"] = some (.ofKind .container) ∧
      ∃ read, ((workshop.recordAll calls).withTree tree).Yields
        ((ofUrl Memory.baseUrl).lastBuildResult ⟨["c i", "app"], by decide⟩ "main") (.ok (some .unstable))
        ((workshop.recordAll (calls ++ read)).withTree tree)) ∧
    ∃ calls, workshop.Yields ((ofUrl Memory.baseUrl).build .topLevel "c i")
      (.error (.transport (some 405) "c i is not buildable")) (workshop.recordAll calls) := by
  refine ⟨by decide, by decide, by decide, ?_, ?_⟩
  · obtain ⟨deeper, hsegments, x, calls, tree, hy, -, ht, hread⟩ :=
      (build_triggers (ofUrl Memory.baseUrl) workshop ⟨["c i"], by decide⟩).2 "app" "main" (by decide) (by decide)
    obtain rfl : deeper = ⟨["c i", "app"], by decide⟩ := FolderPath.ext_segments hsegments
    have hx : x = .ok () := ht.succeeds_iff.2 ⟨by decide, ⟨.job, none, [none]⟩, by decide, by decide⟩
    obtain ⟨node, hnode, hthere, -, hothers⟩ := ht.appended hx
    obtain rfl : ⟨.job, none, [none]⟩ = node := Option.some.inj ((by decide : _ = _).trans hnode)
    subst hx
    refine ⟨calls, tree, hy, hthere, (hothers _ (by decide)).trans (by decide), ?_⟩
    refine hread rfl rfl fun node hnode => ?_
    rw [hthere] at hnode
    cases hnode
    decide
  · obtain ⟨x, calls, tree, hy, -, ht, -⟩ :=
      (build_triggers (ofUrl Memory.baseUrl) workshop .topLevel).1 "c i" (by decide)
    have hfolder : workshop.tree.get? (FolderPath.topLevel.segments ++ ["c i"]) = some (.ofKind .folder) := by decide
    cases x with
    | ok _ =>
      obtain ⟨-, node, hnode, hk⟩ := ht.succeeds_iff.1 rfl
      rw [hfolder] at hnode
      cases hnode
      exact absurd rfl hk
    | error e =>
      obtain rfl : tree = workshop.tree := ht.unchanged e rfl
      rcases ht.faulty e rfl with ⟨q, hq, -⟩ | ⟨-, ⟨hc, -⟩ | ⟨-, rfl⟩⟩
      · cases hq
      · rw [Tree.contains_eq_false_iff, hfolder] at hc
        cases hc
      · exact ⟨calls, hy⟩

end JobServer

end JobHierarchy
