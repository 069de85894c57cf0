import JobHierarchy.Builds
import JobHierarchy.Proofs.Hierarchy
import JobHierarchy.Proofs.Outcomes
/-!
# Walks down a folder path

Where every folder on the way is there, a walk looks at each of them once, changes nothing, and comes
to the handle of the path, whether or not it may create folders (`resolve_yields`).
-/

namespace JobHierarchy

namespace Memory

/-- The requests of a walk over folders that are there. -/
def ItemPath.lookups (path : ItemPath) : List Call := [.getJob path, .folderView path]

/-- The requests that find an item in a folder. -/
def findCalls (folder : FolderPath) (name : String) : List Call :=
  folder.prefixes.flatMap ItemPath.lookups ++ [.getJob (folder.segments ++ [name])]

end Memory

namespace JobServer

open Memory Memory.Server

variable {server : JobServer} {s s' : Server} {above : ItemPath} {name : String} {create : Bool}

/-! ## One step down -/

/-- A step to an item that can hold items. -/
theorem resolveBelow_found {rest : List String} {x : Except Error (Option FolderHandle)} (ha : above.Named)
    (hn : IsItemName name) (h : s.tree.holds (above ++ [name]) = true)
    (hrest : (s.recordAll (ItemPath.lookups (above ++ [name]))).Yields
      (server.resolveBelow create (above ++ [name]) (scopeOf (above ++ [name])) rest) x s') :
    s.Yields (server.resolveBelow create above (scopeOf above) (name :: rest)) x s' := by
  obtain ⟨node, hnode, hk⟩ := Tree.holds_iff.1 h
  have hget := s.yields_getJob ha hn
  rw [if_pos (Tree.contains_of_holds h)] at hget
  have hview := (s.recordAll [.getJob (above ++ [name])]).yields_folderView ha hn
  rw [folderView_recordAll, folderView_of_holder hnode hk, recordAll_recordAll] at hview
  rw [resolveBelow]
  refine hget.bind ((yields_pure _ _).bind (hview.bind ?_))
  rw [scopeOf_append_singleton] at hrest
  exact hrest

/-- A plain job is no folder to step into. -/
theorem resolveBelow_job (server : JobServer) (create : Bool) (rest : List String) {node : Node} (ha : above.Named)
    (hn : IsItemName name) (h : s.tree.get? (above ++ [name]) = some node) (hk : node.kind = .job) :
    s.Yields (server.resolveBelow create above (scopeOf above) (name :: rest))
      (.error (.notFound "folder" ((above ++ [name]).display ++ " (not a folder)")))
      (s.recordAll (ItemPath.lookups (above ++ [name]))) := by
  have hget := s.yields_getJob ha hn
  rw [if_pos (Tree.contains_iff.2 ⟨node, h⟩)] at hget
  have hview := (s.recordAll [.getJob (above ++ [name])]).yields_folderView ha hn
  rw [folderView_recordAll, folderView_of_job h hk, recordAll_recordAll] at hview
  rw [resolveBelow]
  exact hget.bind ((yields_pure _ _).bind (hview.bind (yields_throw _ _)))

/-! ## The whole way -/

theorem resolveBelow_yields (server : JobServer) (create : Bool) :
    ∀ (names : List String) (s : Server) (above : ItemPath),
    ItemPath.Named (above ++ names) → (∀ q ∈ ItemPath.downFrom above names, s.tree.holds q = true) →
    s.Yields (server.resolveBelow create above (scopeOf above) names) (.ok (scopeOf (above ++ names)))
      (s.recordAll ((ItemPath.downFrom above names).flatMap ItemPath.lookups))
  | [], s, above, _, _ => by
    simpa [resolveBelow, ItemPath.downFrom] using s.yields_pure (scopeOf above)
  | name :: rest, s, above, hnamed, hq => by
    obtain ⟨ha, hr⟩ := ItemPath.named_append.1 hnamed
    have hn : IsItemName name := hr name List.mem_cons_self
    have hsplit : above ++ name :: rest = above ++ [name] ++ rest := by simp
    have ih := resolveBelow_yields server create rest (s.recordAll (ItemPath.lookups (above ++ [name])))
      (above ++ [name]) (by rw [← hsplit]; exact hnamed) fun q h => hq q (List.mem_cons_of_mem _ h)
    rw [recordAll_recordAll, ← hsplit] at ih
    exact resolveBelow_found ha hn (hq _ List.mem_cons_self) ih

/-- **A walk over folders that are all there**: two requests for each, and the handle of the path. -/
theorem resolve_yields (server : JobServer) (create : Bool) {path : FolderPath}
    (h : ∀ q ∈ path.prefixes, s.tree.holds q = true) :
    s.Yields (server.resolve path create) (.ok path.handle?)
      (s.recordAll (path.prefixes.flatMap ItemPath.lookups)) := by
  have hwalk := resolveBelow_yields server create path.segments s [] path.named h
  rw [path.handle?_eq]
  exact hwalk.bind ((yields_report _ _ _).bind (yields_pure _ _))

/-- A job found in folders that are all there. -/
theorem findJob_yields (server : JobServer) {folder : FolderPath} (hn : IsItemName name)
    (h : ∀ q ∈ folder.prefixes, s.tree.holds q = true)
    (hjob : s.tree.contains (folder.segments ++ [name]) = true) :
    s.Yields (server.findJob folder name) (.ok ⟨scopeOf folder.segments, name⟩)
      (s.recordAll (findCalls folder name)) := by
  have hget := (s.recordAll (folder.prefixes.flatMap ItemPath.lookups)).yields_getJob folder.named hn
  rw [recordAll_tree, if_pos hjob, recordAll_recordAll] at hget
  rw [← folder.handle?_eq] at hget ⊢
  exact (resolve_yields server false h).bind (hget.bind (yields_pure _ _))

end JobServer

end JobHierarchy
