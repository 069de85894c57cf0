import JobHierarchy.Proofs.Walks
/-!
# Walks that make nothing

A walk that may not create folders goes down to the first path on its way where there is no item that can
hold others (`Tree.gap?`). It says what is wrong there, asks about no longer path, and changes nothing,
whatever tree it finds. Without such a gap it comes to the handle of the path. So what finding a job comes
to can be read off the tree (`JobServer.findJob_looks`).
-/

namespace JobHierarchy

namespace Memory.Tree

variable {tree : Tree} {q : ItemPath}

/-- The first of the paths where there is no item that can hold others. -/
def gap? (tree : Tree) (paths : List ItemPath) : Option ItemPath := paths.find? fun q => !tree.holds q

/-- What is wrong at a path that a walk cannot go past. -/
def gapFault (tree : Tree) (path : ItemPath) : Error :=
  .notFound "folder" (if tree.contains path then path.display ++ " (not a folder)" else path.display)

/-- The requests of a walk that creates nothing. -/
def walkCalls (tree : Tree) : List ItemPath → List Call
  | [] => []
  | q :: rest =>
    if tree.holds q then ItemPath.lookups q ++ tree.walkCalls rest
    else .getJob q :: if tree.contains q then [.folderView q] else []

/-- What finding a job comes to. -/
def findJob (tree : Tree) (folder : FolderPath) (name : String) : Except Error JobRef :=
  match tree.gap? folder.prefixes with
  | some q => .error (tree.gapFault q)
  | none =>
    if tree.contains (folder.segments ++ [name]) then .ok ⟨scopeOf folder.segments, name⟩
    else .error (.notFound "job" (folder.displayItem name))

/-- The requests that find a job, or what is in the way. -/
def findJobCalls (tree : Tree) (folder : FolderPath) (name : String) : List Call :=
  tree.walkCalls folder.prefixes ++
    if (tree.gap? folder.prefixes).isNone then [.getJob (folder.segments ++ [name])] else []

theorem gap?_cons_of_holds (h : tree.holds q = true) (paths : List ItemPath) :
    tree.gap? (q :: paths) = tree.gap? paths := by
  rw [gap?, List.find?_cons_of_neg (by simp [h])]
  rfl

theorem gap?_cons_of_not_holds (h : tree.holds q = false) (paths : List ItemPath) :
    tree.gap? (q :: paths) = some q := by
  rw [gap?, List.find?_cons_of_pos (by simp [h])]

theorem gap?_eq_none_iff {paths : List ItemPath} : tree.gap? paths = none ↔ ∀ q ∈ paths, tree.holds q = true := by
  simp [gap?, List.find?_eq_none]

theorem kind_of_not_holds {node : Node} (h : tree.holds q = false) (hq : tree.get? q = some node) :
    node.kind = .job := by
  unfold holds at h
  rw [hq] at h
  simpa using h

/-- Whatever is wrong, something was not found. -/
theorem findJob_eq_error {folder : FolderPath} {name : String} {e : Error} (h : tree.findJob folder name = .error e) :
    ∃ kind shown, e = .notFound kind shown := by
  unfold findJob at h
  split at h
  · cases h
    exact ⟨_, _, rfl⟩
  · split at h
    · cases h
    · cases h
      exact ⟨_, _, rfl⟩

theorem findJob_eq_ok_iff {folder : FolderPath} {name : String} {job : JobRef} :
    tree.findJob folder name = .ok job ↔ (∀ q ∈ folder.prefixes, tree.holds q = true) ∧
      tree.contains (folder.segments ++ [name]) = true ∧ job = ⟨scopeOf folder.segments, name⟩ := by
  rw [← gap?_eq_none_iff]
  unfold findJob
  cases tree.gap? folder.prefixes with
  | some q => simp
  | none => by_cases hc : tree.contains (folder.segments ++ [name]) = true <;> simp [hc, eq_comm]

/-- Nothing is found where there is no item. -/
theorem findJob_absent {folder : FolderPath} {name : String}
    (h : tree.contains (folder.segments ++ [name]) = false) :
    ∃ kind shown, tree.findJob folder name = .error (.notFound kind shown) := by
  cases hfind : tree.findJob folder name with
  | ok job =>
    obtain ⟨-, hc, -⟩ := findJob_eq_ok_iff.1 hfind
    rw [h] at hc
    cases hc
  | error e =>
    obtain ⟨kind, shown, rfl⟩ := findJob_eq_error hfind
    exact ⟨kind, shown, rfl⟩

end Memory.Tree

namespace JobServer

open Memory Memory.Server

variable {server : JobServer} {s : Server} {above : ItemPath} {name : String}

/-! ## One step down -/

/-- There is nothing to step into, and nothing may be made. -/
theorem resolveBelow_absent (server : JobServer) (rest : List String) (ha : above.Named) (hn : IsItemName name)
    (h : s.tree.contains (above ++ [name]) = false) :
    s.Yields (server.resolveBelow false above (scopeOf above) (name :: rest))
      (.error (.notFound "folder" (above ++ [name]).display)) (s.recordAll [.getJob (above ++ [name])]) := by
  have hget := s.yields_getJob ha hn
  rw [h, if_neg Bool.false_ne_true] at hget
  rw [resolveBelow]
  exact hget.bind ((yields_throw _ _).bind_error _)

/-- A step that cannot be made: what is wrong there, and nothing more is asked. -/
theorem resolveBelow_gap (server : JobServer) (rest : List String) (ha : above.Named) (hn : IsItemName name)
    (h : s.tree.holds (above ++ [name]) = false) (paths : List ItemPath) :
    s.Yields (server.resolveBelow false above (scopeOf above) (name :: rest))
      (.error (s.tree.gapFault (above ++ [name]))) (s.recordAll (s.tree.walkCalls ((above ++ [name]) :: paths))) := by
  rw [Tree.walkCalls, h, if_neg Bool.false_ne_true, Tree.gapFault]
  cases hc : s.tree.contains (above ++ [name]) with
  | true =>
    obtain ⟨node, hnode⟩ := Tree.contains_iff.1 hc
    exact resolveBelow_job server false rest ha hn hnode (Tree.kind_of_not_holds h hnode)
  | false => exact resolveBelow_absent server rest ha hn hc

/-! ## The whole way -/

theorem resolveBelow_looks (server : JobServer) : ∀ (names : List String) (s : Server) (above : ItemPath),
    ItemPath.Named (above ++ names) →
    s.Yields (server.resolveBelow false above (scopeOf above) names)
      (match s.tree.gap? (ItemPath.downFrom above names) with
        | none => .ok (scopeOf (above ++ names))
        | some q => .error (s.tree.gapFault q))
      (s.recordAll (s.tree.walkCalls (ItemPath.downFrom above names)))
  | [], s, above, _ => by
    rw [resolveBelow, ItemPath.downFrom, Tree.walkCalls, recordAll_nil, List.append_nil]
    exact s.yields_pure _
  | name :: rest, s, above, hnamed => by
    obtain ⟨ha, hr⟩ := ItemPath.named_append.1 hnamed
    have hn : IsItemName name := hr name List.mem_cons_self
    have hsplit : above ++ name :: rest = above ++ [name] ++ rest := by simp
    rw [ItemPath.downFrom]
    cases hold : s.tree.holds (above ++ [name]) with
    | false =>
      rw [Tree.gap?_cons_of_not_holds hold]
      exact resolveBelow_gap server rest ha hn hold _
    | true =>
      have ih := resolveBelow_looks server rest (s.recordAll (ItemPath.lookups (above ++ [name]))) (above ++ [name])
        (by rw [← hsplit]; exact hnamed)
      rw [recordAll_tree, recordAll_recordAll, ← hsplit] at ih
      rw [Tree.gap?_cons_of_holds hold, Tree.walkCalls, if_pos hold]
      exact resolveBelow_found ha hn hold ih

/-- **A walk that makes nothing**: the handle of the path if there is no gap on the way, and else what is
wrong at the first one. -/
theorem resolve_looks (server : JobServer) (s : Server) (path : FolderPath) :
    s.Yields (server.resolve path false)
      (match s.tree.gap? path.prefixes with
        | none => .ok path.handle?
        | some q => .error (s.tree.gapFault q))
      (s.recordAll (s.tree.walkCalls path.prefixes)) := by
  have hwalk := resolveBelow_looks server path.segments s [] path.named
  have hprefixes : path.prefixes = ItemPath.downFrom [] path.segments := rfl
  rw [path.handle?_eq, hprefixes]
  cases hgap : s.tree.gap? (ItemPath.downFrom [] path.segments) with
  | none =>
    rw [hgap] at hwalk
    exact hwalk.bind ((yields_report _ _ _).bind (yields_pure _ _))
  | some q =>
    rw [hgap] at hwalk
    exact hwalk.bind_error _

/-- **Finding a job**, whatever the tree holds. -/
theorem findJob_looks (server : JobServer) (s : Server) (folder : FolderPath) (hn : IsItemName name) :
    s.Yields (server.findJob folder name) (s.tree.findJob folder name)
      (s.recordAll (s.tree.findJobCalls folder name)) := by
  have hwalk := resolve_looks server s folder
  rw [Tree.findJob, Tree.findJobCalls]
  cases hgap : s.tree.gap? folder.prefixes with
  | some q =>
    rw [hgap] at hwalk
    rw [Option.isNone_some, if_neg Bool.false_ne_true, List.append_nil]
    exact hwalk.bind_error _
  | none =>
    rw [hgap] at hwalk
    have hget := (s.recordAll (s.tree.walkCalls folder.prefixes)).yields_getJob folder.named hn
    rw [recordAll_tree, recordAll_recordAll, ← folder.handle?_eq] at hget
    rw [Option.isNone_none, if_pos rfl]
    refine hwalk.bind (hget.bind ?_)
    cases hc : s.tree.contains (folder.segments ++ [name]) with
    | true =>
      rw [folder.handle?_eq]
      exact yields_pure _ _
    | false => exact yields_throw _ _

end JobServer

end JobHierarchy
