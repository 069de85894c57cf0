import JobHierarchy.Proofs.Folders
import JobHierarchy.Proofs.Running
/-!
# What one request does to the tree

A request can put a new item into a scope that can hold it, erase a subtree, add a build to an item or stop
one, and it can leave the tree as it is, as it does whenever it fails (`Server.Alters`). There is nothing
else (`Server.perform_alters`), so what these few steps keep, every request keeps. That the tree is well
formed is such a property (`Server.perform_wellFormed`), whatever handles a request comes with: a scope is
looked at before anything is put into it.
-/

namespace JobHierarchy

/-- The name that a request gives to the item it makes. -/
def Request.newName? : Request → Option String
  | .createJob _ name _ => some name
  | .submitFolder _ name _ _ => some name
  | _ => none

namespace Memory

/-- The path of the item that a request is about. -/
def Call.path : Call → ItemPath
  | .getJob path => path
  | .folderView path => path
  | .createFolder path => path
  | .createJob path => path
  | .deleteJob path => path
  | .triggerBuild path => path
  | .listBuilds path => path
  | .buildResult path _ => path
  | .stopBuild path _ => path

namespace Server

variable {s : Server} {r : Request} {scope path : ItemPath} {name : String} {node : Node} {tree : Tree}

/-- What the tree of a server can be after a request. -/
inductive Alters (s : Server) (r : Request) : Tree → Prop where
  | kept : s.Alters r s.tree
  /-- A new item, in a scope that can hold it. -/
  | added {scope : ItemPath} {name : String} (node : Node) (hname : r.newName? = some name)
      (hpath : (callOf r).path = scope.item name) (hscope : scope = [] ∨ s.tree.holds scope = true)
      (hnew : s.tree.contains (scope.item name) = false) : s.Alters r (s.tree.insert (callOf r).path node)
  /-- An item gone, with all that was in it. -/
  | erased {node : Node} (h : s.tree.get? (callOf r).path = some node) :
      s.Alters r (s.tree.eraseBelow (callOf r).path)
  /-- One more build of an item. -/
  | built {node : Node} (h : s.tree.get? (callOf r).path = some node) (hk : node.kind ≠ .folder) :
      s.Alters r (s.tree.insert (callOf r).path { node with builds := node.builds ++ [s.triggeredResult] })
  /-- A running build stopped. -/
  | stopped {node : Node} {number : Nat} (h : s.tree.get? (callOf r).path = some node)
      (hr : number ∈ node.running) : s.Alters r (s.tree.insert (callOf r).path (node.stopAmong [number]))

/-! ## Requests that succeed -/

theorem node_eq_ok (h : s.node path = .ok node) : s.tree.get? path = some node := by
  unfold Server.node at h
  split at h
  · next n hn =>
    cases h
    exact hn
  · cases h

theorem checkScope_eq_ok (h : s.checkScope scope = .ok ()) : scope = [] ∨ s.tree.holds scope = true := by
  unfold checkScope at h
  by_cases hs : scope = []
  · exact .inl hs
  · rw [if_neg hs] at h
    right
    split at h
    · next node hnode =>
      refine Tree.holds_iff.2 ⟨node, hnode, ?_⟩
      intro hk
      rw [if_pos hk] at h
      cases h
    · cases h

theorem insertItem_eq_ok (h : s.insertItem scope name node = .ok tree) :
    (scope = [] ∨ s.tree.holds scope = true) ∧ s.tree.contains (scope.item name) = false ∧
      tree = s.tree.insert (scope.item name) node := by
  obtain ⟨_, hscope, h⟩ := Except.bind_eq_ok h
  refine ⟨checkScope_eq_ok hscope, ?_⟩
  cases hnew : s.tree.contains (scope.item name) with
  | true =>
    simp only [hnew, if_true] at h
    cases h
  | false =>
    simp only [hnew, Bool.false_eq_true, if_false] at h
    cases h
    exact ⟨rfl, rfl⟩

theorem deleteJob_eq_ok (h : s.deleteJob path = .ok tree) :
    (∃ node, s.tree.get? path = some node) ∧ tree = s.tree.eraseBelow path := by
  unfold deleteJob at h
  cases hf : s.deleteFailures.lookup path with
  | some status =>
    simp only [hf] at h
    cases h
  | none =>
    simp only [hf] at h
    obtain ⟨node, hnode, h⟩ := Except.bind_eq_ok h
    cases h
    exact ⟨⟨node, node_eq_ok hnode⟩, rfl⟩

theorem triggerBuild_eq_ok (h : s.triggerBuild path = .ok tree) :
    ∃ node, s.tree.get? path = some node ∧ node.kind ≠ .folder ∧
      tree = s.tree.insert path { node with builds := node.builds ++ [s.triggeredResult] } := by
  obtain ⟨node, hnode, h⟩ := Except.bind_eq_ok h
  split at h
  · cases h
  · next hk =>
    cases h
    exact ⟨node, node_eq_ok hnode, hk, rfl⟩

/-- A build that is there and has no result runs. -/
theorem result_eq_none {number : Nat} (h : s.result path number = .ok none) :
    ∃ node, s.tree.get? path = some node ∧ number ∈ node.running := by
  obtain ⟨node, hnode, h⟩ := Except.bind_eq_ok h
  refine ⟨node, node_eq_ok hnode, ?_⟩
  by_cases h0 : number = 0
  · simp only [if_pos h0] at h
    cases h
  · simp only [if_neg h0] at h
    split at h
    · next latest hb =>
      cases h
      exact Node.mem_running.2 ⟨Nat.pos_of_ne_zero h0, hb⟩
    · cases h

theorem stopBuild_eq_ok {number : Nat} (h : s.stopBuild path number = .ok tree) :
    tree = s.tree ∨ ∃ node, s.tree.get? path = some node ∧ number ∈ node.running ∧
      tree = s.tree.insert path (node.stopAmong [number]) := by
  obtain ⟨latest, hlatest, hok⟩ := Except.bind_eq_ok h
  cases latest with
  | some result =>
    cases hok
    exact .inl rfl
  | none =>
    obtain ⟨node, hnode, hrunning⟩ := result_eq_none hlatest
    rw [stopBuild_eq hnode hrunning] at h
    cases h
    exact .inr ⟨node, hnode, hrunning, rfl⟩

/-! ## All requests -/

theorem changed_alters {s₀ : Server} {x : Except Error Tree} (hs : s₀.tree = s.tree)
    (h : ∀ tree, x = .ok tree → s.Alters r tree) : s.Alters r (s₀.changed x).2.tree := by
  cases x with
  | error e =>
    have hkept : s.Alters r s.tree := .kept
    rw [← hs] at hkept
    exact hkept
  | ok tree => exact h tree rfl

/-- **What a request does to the tree**: one of these steps, at the path that it is about. -/
theorem perform_alters (s : Server) (r : Request) : s.Alters r (s.perform r).2.tree := by
  cases r with
  | getJob scope name => exact .kept
  | folderView job => exact .kept
  | listBuilds job => exact .kept
  | buildResult build => exact .kept
  | createJob scope name definition =>
    refine changed_alters rfl fun tree htree => ?_
    obtain ⟨hscope, hnew, rfl⟩ := insertItem_eq_ok htree
    exact .added _ rfl rfl hscope hnew
  | deleteJob scope name =>
    refine changed_alters rfl fun tree htree => ?_
    obtain ⟨⟨node, hnode⟩, rfl⟩ := deleteJob_eq_ok htree
    exact .erased hnode
  | triggerBuild job =>
    refine changed_alters rfl fun tree htree => ?_
    obtain ⟨node, hnode, hk, rfl⟩ := triggerBuild_eq_ok htree
    exact .built hnode hk
  | stopBuild build =>
    refine changed_alters rfl fun tree htree => ?_
    obtain rfl | ⟨node, hnode, hr, rfl⟩ := stopBuild_eq_ok htree
    · exact .kept
    · exact .stopped hnode hr
  | submitFolder target name definition credentials =>
    unfold perform answer submitFolder
    simp only
    split
    · exact .kept
    · split
      · exact .kept
      · next tree htree =>
        obtain ⟨hscope, hnew, rfl⟩ := insertItem_eq_ok htree
        exact .added _ rfl rfl hscope hnew

theorem Alters.wellFormed (h : s.Alters r tree) (wf : s.tree.WellFormed)
    (hn : ∀ name, r.newName? = some name → IsItemName name) : tree.WellFormed := by
  cases h with
  | kept => exact wf
  | @added scope name node hname hpath hscope hnew =>
    have hitem := hn name hname
    rw [ItemPath.item_eq hitem] at hpath hnew
    rw [hpath]
    exact wf.insert_new node hscope hitem hnew
  | erased h => exact wf.eraseBelow _
  | built h hk => exact wf.insert_same h rfl
  | stopped h hr => exact wf.insert_same h rfl

/-- **A request keeps the tree well formed**, whatever handle it comes with. -/
theorem perform_wellFormed (wf : s.tree.WellFormed) (hn : ∀ name, r.newName? = some name → IsItemName name) :
    (s.perform r).2.tree.WellFormed :=
  (s.perform_alters r).wellFormed wf hn

end Server

end Memory

end JobHierarchy
