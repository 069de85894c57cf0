import JobHierarchy.Proofs.Folders
/-!
# Folders made on the way

A walk that may create folders goes down until something stops it: a plain job in the way, or a missing
folder whose creation fails (`Server.blocks`). The folders that were missing before that point are made,
each empty and each by one request, and nothing else of the tree changes
(`resolve_creates_missing`). Races do not matter.
-/

namespace JobHierarchy

namespace Memory

/-- The path of a folder that a request asks to create. -/
def Call.creation? : Call → Option ItemPath
  | .createFolder path => some path
  | _ => none

namespace Server

variable {s s₁ : Server}

/-- The folders that requests have asked for, oldest first. -/
def creations (s : Server) : List ItemPath := s.picked Call.creation?

theorem creations_recordAll (s : Server) (calls : List Call) :
    (s.recordAll calls).creations = s.creations ++ calls.filterMap Call.creation? := s.picked_recordAll _ calls

/-! ## What stops a walk -/

/-- A walk that may create folders cannot go past `path`: a plain job is there, or nothing is there and
creating a folder is made to fail. -/
def blocks (s : Server) (path : ItemPath) : Bool :=
  match s.tree.get? path with
  | some node => node.kind == .job
  | none => (s.folderFailures.lookup path).isSome

/-- The first of the paths that a walk cannot go past. -/
def stop? (s : Server) (paths : List ItemPath) : Option ItemPath := paths.find? s.blocks

/-- Those of the paths before the first stop where nothing is. -/
def missing (s : Server) (paths : List ItemPath) : List ItemPath :=
  (paths.takeWhile fun q => !s.blocks q).filter fun q => !s.tree.contains q

/-- The paths that a walk asks to create: the missing ones, and the one whose creation stops it. -/
def requested (s : Server) (paths : List ItemPath) : List ItemPath :=
  s.missing paths ++ (s.stop? paths).toList.filter fun q => !s.tree.contains q

/-- Why a walk cannot go past `path`. -/
def refusal (s : Server) (path : ItemPath) : Error :=
  if s.tree.contains path then .notFound "folder" (path.display ++ " (not a folder)")
  else .transport (s.folderFailures.lookup path) ("cannot create " ++ path.display)

theorem blocks_eq_true {path : ItemPath} (h : s.blocks path = true) :
    (∃ node, s.tree.get? path = some node ∧ node.kind = .job) ∨
      (s.tree.contains path = false ∧ ∃ status, s.folderFailures.lookup path = some status) := by
  unfold blocks at h
  cases hg : s.tree.get? path with
  | some node =>
    rw [hg] at h
    exact .inl ⟨node, rfl, eq_of_beq h⟩
  | none =>
    rw [hg] at h
    exact .inr ⟨Tree.contains_eq_false_iff.2 hg, Option.isSome_iff_exists.1 h⟩

theorem blocks_eq_false {path : ItemPath} (h : s.blocks path = false) :
    s.tree.holds path = true ∨ (s.tree.contains path = false ∧ s.folderFailures.lookup path = none) := by
  unfold blocks at h
  cases hg : s.tree.get? path with
  | some node =>
    rw [hg] at h
    exact .inl (Tree.holds_iff.2 ⟨node, hg, by simpa using h⟩)
  | none =>
    rw [hg] at h
    exact .inr ⟨Tree.contains_eq_false_iff.2 hg, Option.isNone_iff_eq_none.1 (Option.isSome_eq_false_iff.1 h)⟩

/-! ### Servers alike at some paths -/

/-- Both servers answer alike about each of the paths, as far as a walk can tell. -/
def AlikeAt (s s₁ : Server) (paths : List ItemPath) : Prop :=
  s₁.folderFailures = s.folderFailures ∧ ∀ q ∈ paths, s₁.tree.get? q = s.tree.get? q

theorem AlikeAt.tail {q : ItemPath} {paths : List ItemPath} (h : AlikeAt s s₁ (q :: paths)) : AlikeAt s s₁ paths :=
  ⟨h.1, fun p hp => h.2 p (List.mem_cons_of_mem _ hp)⟩

theorem AlikeAt.head {q : ItemPath} {paths : List ItemPath} (h : AlikeAt s s₁ (q :: paths)) :
    s₁.blocks q = s.blocks q ∧ s₁.tree.contains q = s.tree.contains q := by
  have hg := h.2 q List.mem_cons_self
  exact ⟨by rw [blocks, blocks, hg, h.1], by rw [Tree.contains, Tree.contains, hg]⟩

theorem AlikeAt.stop? : ∀ {paths : List ItemPath}, AlikeAt s s₁ paths → s₁.stop? paths = s.stop? paths
  | [], _ => rfl
  | q :: paths, h => by
    have ih := h.tail.stop?
    unfold Server.stop? at ih ⊢
    rw [List.find?_cons, List.find?_cons, h.head.1, ih]

theorem AlikeAt.missing : ∀ {paths : List ItemPath}, AlikeAt s s₁ paths → s₁.missing paths = s.missing paths
  | [], _ => rfl
  | q :: paths, h => by
    have ih := h.tail.missing
    unfold Server.missing at ih ⊢
    rw [List.takeWhile_cons, List.takeWhile_cons, h.head.1]
    split
    · rw [List.filter_cons, List.filter_cons, h.head.2, ih]
    · rfl

theorem AlikeAt.requested {paths : List ItemPath} (h : AlikeAt s s₁ paths) :
    s₁.requested paths = s.requested paths := by
  unfold Server.requested
  rw [h.stop?, h.missing]
  congr 1
  cases hs : s.stop? paths with
  | none => rfl
  | some q =>
    have hq : s₁.tree.get? q = s.tree.get? q := h.2 q (List.mem_of_find?_eq_some hs)
    simp only [Option.toList_some, List.filter_cons, List.filter_nil, Tree.contains, hq]

theorem AlikeAt.refusal {paths : List ItemPath} (h : AlikeAt s s₁ paths) {q : ItemPath} (hq : s.stop? paths = some q) :
    s₁.refusal q = s.refusal q := by
  have hg := h.2 q (List.mem_of_find?_eq_some hq)
  rw [Server.refusal, Server.refusal, Tree.contains, Tree.contains, hg, h.1]

/-! ### The first path of several -/

section
variable {q : ItemPath} (paths : List ItemPath)

theorem stop?_cons_blocked (h : s.blocks q = true) : s.stop? (q :: paths) = some q :=
  List.find?_cons_of_pos h

theorem missing_cons_blocked (h : s.blocks q = true) : s.missing (q :: paths) = [] := by
  rw [missing, List.takeWhile_cons, h]
  rfl

theorem stop?_cons_free (h : s.blocks q = false) : s.stop? (q :: paths) = s.stop? paths :=
  List.find?_cons_of_neg (Bool.not_eq_true _ ▸ h)

theorem missing_cons_free (h : s.blocks q = false) :
    s.missing (q :: paths) = if s.tree.contains q then s.missing paths else q :: s.missing paths := by
  simp only [missing, List.takeWhile_cons, h, Bool.not_false, if_true, List.filter_cons]
  cases s.tree.contains q <;> rfl

theorem requested_cons_free (h : s.blocks q = false) :
    s.requested (q :: paths) = if s.tree.contains q then s.requested paths else q :: s.requested paths := by
  rw [requested, stop?_cons_free paths h, missing_cons_free paths h]
  cases s.tree.contains q <;> rfl

end

/-- The server after a walk that may create folders: empty folders where something was missing on the
way, all other items as before, and the requests for them on record. -/
structure Filled (s : Server) (paths : List ItemPath) (s' : Server) : Prop where
  nodes : ∀ q, s'.tree.get? q = if q ∈ s.missing paths then some (.ofKind .folder) else s.tree.get? q
  creations : s'.creations = s.creations ++ s.requested paths

/-- Nothing on the way: nothing done. -/
theorem filled_nil (s : Server) : s.Filled [] s :=
  ⟨fun _ => (if_neg List.not_mem_nil).symm, by simp [requested, missing, stop?]⟩

/-- A walk on from a folder that was there. -/
theorem Filled.found {q : ItemPath} {paths : List ItemPath} {calls : List Call} {s' : Server}
    (h : (s.recordAll calls).Filled paths s') (hb : s.blocks q = false) (hq : s.tree.contains q = true)
    (hcalls : calls.filterMap Call.creation? = []) : s.Filled (q :: paths) s' := by
  refine ⟨fun p => ?_, ?_⟩
  · rw [missing_cons_free paths hb, if_pos hq]
    exact h.nodes p
  · rw [requested_cons_free paths hb, if_pos hq, h.creations, creations_recordAll, hcalls, List.append_nil]
    rfl

/-- A walk on from a folder that was made. -/
theorem Filled.made {q : ItemPath} {paths : List ItemPath} {s' : Server} (h : s₁.Filled paths s')
    (hb : s.blocks q = false) (hq : s.tree.contains q = false) (halike : AlikeAt s s₁ paths)
    (htree : s₁.tree = s.tree.insert q (.ofKind .folder)) (hcalls : s₁.creations = s.creations ++ [q]) :
    s.Filled (q :: paths) s' := by
  refine ⟨fun p => ?_, ?_⟩
  · rw [h.nodes, halike.missing, missing_cons_free paths hb, hq, if_neg Bool.false_ne_true, htree, Tree.get?_insert]
    by_cases hp : p ∈ s.missing paths
    · rw [if_pos hp, if_pos (List.mem_cons_of_mem _ hp)]
    · by_cases hpq : p = q <;> simp [hp, hpq]
  · rw [h.creations, halike.requested, hcalls, requested_cons_free paths hb, hq, if_neg Bool.false_ne_true]
    simp

end Server

end Memory

namespace JobServer

open Memory Memory.Server

variable {server : JobServer} {s s' : Server} {above : ItemPath} {name : String} {rest : List String}

/-! ## One step down -/

/-- The requests of a step to a folder that the walk makes itself. -/
def creatingLookups (path : ItemPath) : List Call :=
  [.getJob path, .createFolder path, .getJob path, .folderView path]

/-- A step to a folder that was missing. -/
theorem resolveBelow_new {x : Except Error (Option FolderHandle)} (hm : server.InMemory) (ha : above.Named)
    (hn : IsItemName name) (hf : s.folderFailures.lookup (above ++ [name]) = none)
    (h : above = [] ∨ s.tree.holds above = true) (hnew : s.tree.contains (above ++ [name]) = false)
    (hrest : ((s.withFolder (above ++ [name])).recordAll (creatingLookups (above ++ [name]))).Yields
      (server.resolveBelow true (above ++ [name]) (scopeOf (above ++ [name])) rest) x s') :
    s.Yields (server.resolveBelow true above (scopeOf above) (name :: rest)) x s' := by
  have hget := s.yields_getJob ha hn
  rw [hnew, if_neg Bool.false_ne_true] at hget
  have hmake := createAndFind_yields_new (s := s.recordAll [.getJob (above ++ [name])]) hm ha hn hf h hnew
  have hview := ((s.withFolder (above ++ [name])).recordAll
    [.getJob (above ++ [name]), .createFolder (above ++ [name]), .getJob (above ++ [name])]).yields_folderView ha hn
  rw [folderView_recordAll, folderView_of_holder (Tree.get?_insert_self _ _ _) (by decide),
    recordAll_recordAll] at hview
  rw [resolveBelow]
  refine hget.bind (hmake.bind ?_)
  rw [scopeOf_append_singleton] at hrest
  exact hview.bind hrest

/-- A step to a folder that was missing and cannot be made. -/
theorem resolveBelow_failing (rest : List String) {status : Nat} (hm : server.InMemory) (ha : above.Named)
    (hn : IsItemName name) (hf : s.folderFailures.lookup (above ++ [name]) = some status)
    (hnew : s.tree.contains (above ++ [name]) = false) :
    s.Yields (server.resolveBelow true above (scopeOf above) (name :: rest))
      (.error (.transport (some status) ("cannot create " ++ (above ++ [name]).display)))
      (s.recordAll [.getJob (above ++ [name]), .createFolder (above ++ [name]), .getJob (above ++ [name])]) := by
  have hget := s.yields_getJob ha hn
  rw [hnew, if_neg Bool.false_ne_true] at hget
  have hmake := createAndFind_yields_failing (s := s.recordAll [.getJob (above ++ [name])]) hm ha hn hf hnew
  rw [recordAll_recordAll] at hmake
  rw [resolveBelow]
  exact hget.bind (hmake.bind_error _)

/-- A step that the server blocks: its reason, and nothing changed but the record. -/
theorem resolveBelow_blocked (rest : List String) (hm : server.InMemory) (ha : above.Named) (hn : IsItemName name)
    (hb : s.blocks (above ++ [name]) = true) (paths : List ItemPath) :
    ∃ s', s.Yields (server.resolveBelow true above (scopeOf above) (name :: rest))
        (.error (s.refusal (above ++ [name]))) s' ∧ s.Filled ((above ++ [name]) :: paths) s' := by
  have hstop := stop?_cons_blocked paths hb
  have hmiss := missing_cons_blocked paths hb
  rcases blocks_eq_true hb with ⟨node, hnode, hk⟩ | ⟨hnew, status, hf⟩
  · have hc : s.tree.contains (above ++ [name]) = true := Tree.contains_iff.2 ⟨node, hnode⟩
    have hy := resolveBelow_job server true rest ha hn hnode hk
    refine ⟨_, by rw [refusal, if_pos hc]; exact hy, ?_, ?_⟩
    · intro q; rw [hmiss, if_neg List.not_mem_nil]; rfl
    · rw [requested, hmiss, hstop]
      simp only [creations_recordAll, Option.toList_some, List.filter_cons, hc]
      rfl
  · have hy := resolveBelow_failing rest hm ha hn hf hnew
    refine ⟨_, by rw [refusal, hnew, if_neg Bool.false_ne_true, hf]; exact hy, ?_, ?_⟩
    · intro q; rw [hmiss, if_neg List.not_mem_nil]; rfl
    · rw [requested, hmiss, hstop]
      simp only [creations_recordAll, Option.toList_some, List.filter_cons, hnew]
      rfl

/-! ## The whole way -/

theorem resolveBelow_lazily (hm : server.InMemory) : ∀ (names : List String) (s : Server) (above : ItemPath),
    s.tree.WellFormed → ItemPath.Named (above ++ names) → (above = [] ∨ s.tree.holds above = true) →
    ∃ s', s.Yields (server.resolveBelow true above (scopeOf above) names)
        (match s.stop? (ItemPath.downFrom above names) with
          | none => .ok (scopeOf (above ++ names))
          | some q => .error (s.refusal q)) s' ∧
      s.Filled (ItemPath.downFrom above names) s'
  | [], s, above, _, _, _ => by
    rw [resolveBelow, List.append_nil]
    exact ⟨s, s.yields_pure _, s.filled_nil⟩
  | name :: rest, s, above, wf, hnamed, habove => by
    obtain ⟨ha, hr⟩ := ItemPath.named_append.1 hnamed
    have hn : IsItemName name := hr name List.mem_cons_self
    have hsplit : above ++ name :: rest = above ++ [name] ++ rest := by simp
    rw [ItemPath.downFrom]
    cases hb : s.blocks (above ++ [name]) with
    | true =>
      obtain ⟨s', hy, hfill⟩ := resolveBelow_blocked rest hm ha hn hb (ItemPath.downFrom (above ++ [name]) rest)
      exact ⟨s', by rw [stop?_cons_blocked _ hb]; exact hy, hfill⟩
    | false =>
      rw [hsplit] at hnamed ⊢
      rcases blocks_eq_false hb with hold | ⟨hnew, hf⟩
      · obtain ⟨s', hy, hfill⟩ := resolveBelow_lazily hm rest (s.recordAll (ItemPath.lookups (above ++ [name])))
          (above ++ [name]) wf hnamed (.inr hold)
        rw [stop?_cons_free _ hb]
        exact ⟨s', resolveBelow_found ha hn hold hy, hfill.found hb (Tree.contains_of_holds hold) rfl⟩
      · let s₁ := (s.withFolder (above ++ [name])).recordAll (creatingLookups (above ++ [name]))
        have hhold : s₁.tree.holds (above ++ [name]) = true :=
          Tree.holds_iff.2 ⟨_, Tree.get?_insert_self _ _ _, by decide⟩
        obtain ⟨s', hy, hfill⟩ := resolveBelow_lazily hm rest s₁ (above ++ [name])
          (wf.insert_new _ habove hn hnew) hnamed (.inr hhold)
        -- further down, the server answers as before the folder was made
        have halike : s.AlikeAt s₁ (ItemPath.downFrom (above ++ [name]) rest) :=
          ⟨rfl, fun q hq => Tree.get?_insert_ne _ _ (ItemPath.ne_of_mem_downFrom hq)⟩
        rw [stop?_cons_free _ hb, ← halike.stop?]
        refine ⟨s', ?_, hfill.made hb hnew halike rfl (creations_recordAll s _)⟩
        refine resolveBelow_new hm ha hn hf habove hnew ?_
        cases hstop : s₁.stop? (ItemPath.downFrom (above ++ [name]) rest) with
        | none =>
          rw [hstop] at hy
          exact hy
        | some q =>
          rw [hstop] at hy
          rw [halike.stop?] at hstop
          simp only [halike.refusal hstop] at hy
          exact hy

/-- **Lazy creation makes exactly the missing folders**, whatever creations are made to fail or race. The
walk comes to the handle of the path unless something stops it, and then to the reason; the tree gains an
empty folder where one was missing before that point and is otherwise untouched; and the folders asked
for are those and the one whose creation failed, in order. -/
theorem resolve_creates_missing (hm : server.InMemory) (wf : s.tree.WellFormed) (path : FolderPath) :
    ∃ s', s.Yields (server.resolve path true)
        (match s.stop? path.prefixes with
          | none => .ok path.handle?
          | some q => .error (s.refusal q)) s' ∧
      (∀ q, s'.tree.get? q = if q ∈ s.missing path.prefixes then some (.ofKind .folder) else s.tree.get? q) ∧
      s'.creations = s.creations ++ s.requested path.prefixes := by
  obtain ⟨s', hy, hfill⟩ := resolveBelow_lazily hm path.segments s [] wf path.named (.inl rfl)
  refine ⟨s', ?_, hfill.nodes, hfill.creations⟩
  have hprefixes : path.prefixes = ItemPath.downFrom [] path.segments := rfl
  rw [path.handle?_eq, hprefixes]
  cases hstop : s.stop? (ItemPath.downFrom [] path.segments) with
  | none =>
    rw [hstop] at hy
    exact hy.bind ((yields_report _ _ _).bind (yields_pure _ _))
  | some q =>
    rw [hstop] at hy
    exact hy.bind_error _

/-- One folder is there, the next is raced, and the one after that is refused. -/
def frontier : Server :=
  { Server.empty with
    tree := Tree.empty.insert ["ci"] (.ofKind .folder)
    racing := [["ci", "a+b"]]
    folderFailures := [(["ci", "a+b", "50 %"], 503)] }

def beyondFrontier : FolderPath := ⟨["ci", "a+b", "50 %", "nightly"], by decide⟩

theorem resolve_creates_missing_frontier :
    (ofUrl Memory.baseUrl).InMemory ∧ frontier.tree.WellFormed ∧
      ∃ s', frontier.Yields ((ofUrl Memory.baseUrl).resolve beyondFrontier true)
          (.error (.transport (some 503) "cannot create ci/a+b/50 %")) s' ∧
        (∀ q, s'.tree.get? q = if q = ["ci", "a+b"] then some (.ofKind .folder) else frontier.tree.get? q) ∧
        s'.creations = [["ci", "a+b"], ["ci", "a+b", "50 %"]] := by
  have wf : frontier.tree.WellFormed := by decide
  have hmiss : frontier.missing beyondFrontier.prefixes = [["ci", "a+b"]] := by decide
  refine ⟨inMemory_ofUrl, wf, ?_⟩
  obtain ⟨s', hy, hnodes, hcalls⟩ := resolve_creates_missing inMemory_ofUrl wf beyondFrontier
  refine ⟨s', hy, fun q => ?_, hcalls⟩
  rw [hnodes, hmiss]
  simp

end JobServer

end JobHierarchy
