import JobHierarchy.Proofs.Items
/-!
# Chains of folders

A chain of folders is created one in the other until a creation reports an error (`Server.firstTrip?`). Either it was
made to fail, and the folder is not there, or someone else was faster, and it is (`Server.made`). The folders of the
chain before it are there and empty, the others are not.

This is so for a chain that starts where nothing is (`JobServer.createFolders_yields`). For a chain from the top level,
`JobServer.createFolderChain_outcome` says what it comes to in each case, with and without the deletion of the old root.
-/

namespace JobHierarchy

namespace Memory

/-- All paths on a way down lie at or below the first. -/
theorem ItemPath.head_prefix_of_mem_downFrom {q above : ItemPath} {name : String} {rest : List String}
    (h : q ∈ downFrom above (name :: rest)) : above ++ [name] <+: q := by
  rcases List.mem_cons.1 h with rfl | h
  · exact List.prefix_rfl
  · exact above_prefix_of_mem_downFrom h

namespace Tree

variable {tree : Tree}

/-- The tree with empty folders at the paths. -/
def addFolders (tree : Tree) (paths : List ItemPath) : Tree :=
  paths.foldl (fun t q => t.insert q (.ofKind .folder)) tree

theorem get?_addFolders (tree : Tree) (paths : List ItemPath) (q : ItemPath) :
    (tree.addFolders paths).get? q = if q ∈ paths then some (.ofKind .folder) else tree.get? q := by
  induction paths generalizing tree with
  | nil => rfl
  | cons p paths ih =>
    refine (ih (tree.insert p (.ofKind .folder))).trans ?_
    rw [get?_insert]
    by_cases hq : q ∈ paths
    · rw [if_pos hq, if_pos (List.mem_cons_of_mem _ hq)]
    · by_cases hp : q = p <;> simp [hq, hp]

/-- A chain of folders where nothing was. -/
theorem WellFormed.addFolders : ∀ (names : List String) (tree : Tree) (above : ItemPath), tree.WellFormed →
    ItemPath.Named (above ++ names) → (above = [] ∨ tree.holds above = true) →
    (∀ q ∈ ItemPath.downFrom above names, tree.contains q = false) →
    (tree.addFolders (ItemPath.downFrom above names)).WellFormed
  | [], tree, above, wf, _, _, _ => wf
  | name :: rest, tree, above, wf, hnamed, h, hnew => by
    have hn : IsItemName name := hnamed name (by simp)
    rw [show above ++ name :: rest = above ++ [name] ++ rest by simp] at hnamed
    refine addFolders rest _ (above ++ [name]) (wf.insert_new (.ofKind .folder) h hn (hnew _ List.mem_cons_self)) hnamed
      (.inr (holds_iff.2 ⟨_, get?_insert_self _ _ _, by decide⟩)) fun q hq => ?_
    rw [contains_insert, decide_eq_false (ItemPath.ne_of_mem_downFrom hq), Bool.false_or]
    exact hnew q (List.mem_cons_of_mem _ hq)

end Tree

namespace Server

variable {s : Server} {path : ItemPath} {paths : List ItemPath}

/-! ## Creations that report an error -/

/-- Creating a folder at `path` reports an error: it is made to fail, or someone else is faster. -/
def trips (s : Server) (path : ItemPath) : Bool := (s.folderFailures.lookup path).isSome || s.racing.contains path

/-- The first of the folders whose creation reports an error. -/
def firstTrip? (s : Server) (paths : List ItemPath) : Option ItemPath := paths.find? s.trips

/-- The error that is reported. -/
def tripFault (s : Server) (path : ItemPath) : Error :=
  match s.folderFailures.lookup path with
  | some status => .transport (some status) ("cannot create " ++ path.display)
  | none => nameTaken (path.getLastD "")

/-- The folders before the first whose creation reports an error. -/
def untripped (s : Server) (paths : List ItemPath) : List ItemPath := paths.takeWhile fun q => !s.trips q

/-- The folders that are asked for. -/
def attempted (s : Server) (paths : List ItemPath) : List ItemPath := s.untripped paths ++ (s.firstTrip? paths).toList

/-- The folders that are there afterwards: an error is reported of the last, if someone else was faster. -/
def made (s : Server) (paths : List ItemPath) : List ItemPath :=
  s.untripped paths ++ (s.firstTrip? paths).toList.filter fun q => (s.folderFailures.lookup q).isNone

/-- The server after a chain of folders where nothing was. -/
def chained (s : Server) (paths : List ItemPath) : Server :=
  { s.recordAll ((s.attempted paths).map .createFolder) with
    tree := s.tree.addFolders (s.made paths)
    racing := s.racing.filter fun q => !(s.made paths).contains q }

/-- What a chain of folders comes to that ends at `last`. -/
def chainOutcome (s : Server) (paths : List ItemPath) (last : FolderHandle) : Except Error FolderHandle :=
  match s.firstTrip? paths with
  | none => .ok last
  | some q => .error (s.tripFault q)

theorem trips_of_failing {status : Nat} (h : s.folderFailures.lookup path = some status) : s.trips path = true := by
  simp [trips, h]

theorem trips_eq_false_iff : s.trips path = false ↔ s.folderFailures.lookup path = none ∧ path ∉ s.racing := by
  simp [trips]

section
variable (paths)

theorem firstTrip?_cons_tripped (h : s.trips path = true) : s.firstTrip? (path :: paths) = some path :=
  List.find?_cons_of_pos h

theorem firstTrip?_cons_free (h : s.trips path = false) : s.firstTrip? (path :: paths) = s.firstTrip? paths :=
  List.find?_cons_of_neg (Bool.not_eq_true _ ▸ h)

theorem attempted_cons_tripped (h : s.trips path = true) : s.attempted (path :: paths) = [path] := by
  simp [attempted, untripped, firstTrip?_cons_tripped paths h, h]

theorem attempted_cons_free (h : s.trips path = false) : s.attempted (path :: paths) = path :: s.attempted paths := by
  simp [attempted, untripped, firstTrip?_cons_free paths h, h]

theorem made_cons_failing {status : Nat} (h : s.folderFailures.lookup path = some status) :
    s.made (path :: paths) = [] := by
  have htrips := trips_of_failing h
  simp [made, untripped, firstTrip?_cons_tripped paths htrips, htrips, h]

theorem made_cons_raced (hf : s.folderFailures.lookup path = none) (h : s.trips path = true) :
    s.made (path :: paths) = [path] := by
  simp [made, untripped, firstTrip?_cons_tripped paths h, h, hf]

theorem made_cons_free (h : s.trips path = false) : s.made (path :: paths) = path :: s.made paths := by
  simp [made, untripped, firstTrip?_cons_free paths h, h]

theorem chainOutcome_cons_tripped (h : s.trips path = true) (last : FolderHandle) :
    s.chainOutcome (path :: paths) last = .error (s.tripFault path) := by
  rw [chainOutcome, firstTrip?_cons_tripped paths h]

theorem chainOutcome_cons_free (h : s.trips path = false) (last : FolderHandle) :
    s.chainOutcome (path :: paths) last = s.chainOutcome paths last := by
  rw [chainOutcome, firstTrip?_cons_free paths h, chainOutcome]

@[simp] theorem chained_nil (s : Server) : s.chained [] = s := by
  simp [chained, attempted, made, untripped, firstTrip?, Tree.addFolders, recordAll]

theorem chained_cons_failing {status : Nat} (h : s.folderFailures.lookup path = some status) :
    s.chained (path :: paths) = s.recordAll [.createFolder path] := by
  simp [chained, made_cons_failing paths h, attempted_cons_tripped paths (trips_of_failing h), Tree.addFolders,
    recordAll]

theorem chained_cons_raced (hf : s.folderFailures.lookup path = none) (h : s.trips path = true) :
    s.chained (path :: paths) = (s.recordAll [.createFolder path]).withFolder path := by
  have hraces : (s.racing.filter fun q => !([path].contains q)) = s.racing.filter (· != path) :=
    List.filter_congr fun q _ => by by_cases hq : q = path <;> simp [hq]
  rw [chained, made_cons_raced paths hf h, attempted_cons_tripped paths h, hraces]
  rfl

/-- A creation that reports no error ends no race. -/
theorem withFolder_of_free (h : s.trips path = false) :
    s.withFolder path = s.withTree (s.tree.insert path (.ofKind .folder)) := by
  have hraces : s.racing.filter (· != path) = s.racing := by
    refine List.filter_eq_self.2 fun q hq => bne_iff_ne.2 ?_
    rintro rfl
    exact (trips_eq_false_iff.1 h).2 hq
  rw [withFolder, withoutRace, hraces]
  rfl

theorem chained_cons_free (h : s.trips path = false) :
    s.chained (path :: paths) =
      ((s.recordAll [.createFolder path]).withTree (s.tree.insert path (.ofKind .folder))).chained paths := by
  have hraces : (s.racing.filter fun q => !(path :: s.made paths).contains q) =
      s.racing.filter fun q => !(s.made paths).contains q := by
    refine List.filter_congr fun q hq => ?_
    have hne : q ≠ path := by
      rintro rfl
      exact (trips_eq_false_iff.1 h).2 hq
    simp [hne]
  have hcalls : s.recordAll ((s.attempted (path :: paths)).map .createFolder) =
      (s.recordAll [.createFolder path]).recordAll ((s.attempted paths).map .createFolder) := by
    rw [recordAll_recordAll, attempted_cons_free paths h]
    rfl
  rw [chained, made_cons_free paths h, hraces, hcalls]
  rfl

end

end Server

end Memory

namespace JobServer

open Memory Memory.Server

variable {server : JobServer} {s : Server} {above : ItemPath} {name : String}

/-! ## One folder after the other -/

section
variable {paths : List ItemPath} {last : FolderHandle} {f : FolderHandle → Operation FolderHandle}

/-- A folder whose creation is made to fail, there or not. -/
theorem createFolder_failing (hm : server.InMemory) (ha : above.Named) (hn : IsItemName name) {status : Nat}
    (hf : s.folderFailures.lookup (above ++ [name]) = some status) :
    s.Yields (server.createFolder (scopeOf above) name >>= f) (s.chainOutcome ((above ++ [name]) :: paths) last)
      (s.chained ((above ++ [name]) :: paths)) := by
  have hsub := submitFolder_failing (s := s.recordAll [.createFolder (above ++ [name])]) hn hf
  have hfault : s.tripFault (above ++ [name]) =
      .transport (some status) ("cannot create " ++ (above ++ [name]).display) := by rw [tripFault, hf]
  rw [chainOutcome_cons_tripped paths (trips_of_failing hf), chained_cons_failing paths hf, hfault]
  exact (createFolder_yields hm ha hn hsub).bind_error f

/-- A new folder, and what comes after it if its creation reports no error. -/
theorem createFolder_bind (hm : server.InMemory) (ha : above.Named) (hn : IsItemName name)
    (hhold : above = [] ∨ s.tree.holds above = true) (hnew : s.tree.contains (above ++ [name]) = false)
    (hnext : ∀ s₁, s₁ = (s.recordAll [.createFolder (above ++ [name])]).withTree
        (s.tree.insert (above ++ [name]) (.ofKind .folder)) →
      s₁.Yields (f (handleOf (above ++ [name]))) (s₁.chainOutcome paths last) (s₁.chained paths)) :
    s.Yields (server.createFolder (scopeOf above) name >>= f) (s.chainOutcome ((above ++ [name]) :: paths) last)
      (s.chained ((above ++ [name]) :: paths)) := by
  cases hf : s.folderFailures.lookup (above ++ [name]) with
  | some status => exact createFolder_failing hm ha hn hf
  | none =>
    have hsub := submitFolder_new (s := s.recordAll [.createFolder (above ++ [name])]) hn hf hhold hnew
    have hraced : (s.recordAll [.createFolder (above ++ [name])]).racing.contains (above ++ [name]) =
        s.trips (above ++ [name]) := by
      rw [trips, hf]
      rfl
    rw [hraced] at hsub
    cases htrips : s.trips (above ++ [name]) with
    | true =>
      have hfault : s.tripFault (above ++ [name]) = nameTaken name := by rw [tripFault, hf, List.getLastD_concat]
      rw [htrips, if_pos rfl] at hsub
      rw [chainOutcome_cons_tripped paths htrips, chained_cons_raced paths hf htrips, hfault]
      exact (createFolder_yields hm ha hn hsub).bind_error f
    | false =>
      have hfree : (s.recordAll [.createFolder (above ++ [name])]).trips (above ++ [name]) = false := htrips
      rw [htrips, if_neg Bool.false_ne_true, withFolder_of_free hfree] at hsub
      rw [chainOutcome_cons_free paths htrips, chained_cons_free paths htrips]
      exact (createFolder_yields hm ha hn hsub).bind (hnext _ rfl)

end

/-- Folders created one in the other, the first of them in the scope at `above`. -/
theorem createFolders_yields (hm : server.InMemory) : ∀ (rest : List String) (name : String) (s : Server)
    (above : ItemPath), ItemPath.Named (above ++ name :: rest) → (above = [] ∨ s.tree.holds above = true) →
    (∀ q ∈ ItemPath.downFrom above (name :: rest), s.tree.contains q = false) →
    s.Yields (server.createFolder (scopeOf above) name >>= fun first => server.createFoldersBelow first rest)
      (s.chainOutcome (ItemPath.downFrom above (name :: rest)) (handleOf (above ++ name :: rest)))
      (s.chained (ItemPath.downFrom above (name :: rest)))
  | [], name, s, above, hnamed, hhold, hnew => by
    obtain ⟨ha, hn⟩ := ItemPath.named_append.1 hnamed
    refine createFolder_bind hm ha (hn name List.mem_cons_self) hhold (hnew _ List.mem_cons_self) fun s₁ _ => ?_
    rw [ItemPath.downFrom, chained_nil]
    exact yields_pure s₁ _
  | next :: rest, name, s, above, hnamed, hhold, hnew => by
    obtain ⟨ha, hn⟩ := ItemPath.named_append.1 hnamed
    refine createFolder_bind hm ha (hn name List.mem_cons_self) hhold (hnew _ List.mem_cons_self) fun s₁ hs₁ => ?_
    have hsplit : above ++ name :: next :: rest = above ++ [name] ++ next :: rest := by simp
    rw [hsplit] at hnamed ⊢
    have hnew₁ : ∀ q ∈ ItemPath.downFrom (above ++ [name]) (next :: rest), s₁.tree.contains q = false := by
      intro q hq
      rw [hs₁, withTree_tree, Tree.contains_insert, decide_eq_false (ItemPath.ne_of_mem_downFrom hq), Bool.false_or]
      exact hnew q (List.mem_cons_of_mem _ hq)
    have hhold₁ : s₁.tree.holds (above ++ [name]) = true := by
      rw [hs₁]
      exact Tree.holds_iff.2 ⟨_, Tree.get?_insert_self _ _ _, by decide⟩
    have ih := createFolders_yields hm rest next s₁ (above ++ [name]) hnamed (.inr hhold₁) hnew₁
    rw [scopeOf_append_singleton] at ih
    exact ih

/-! ## Chains from the top level -/

section
variable {path : FolderPath} {root : String} {rest : List String}

/-- A chain of folders where its root was, which has been deleted. -/
theorem createFolderChain_clean (hm : server.InMemory) (wf : s.tree.WellFormed) (hpath : path.segments = root :: rest)
    (hf : s.deleteFailures.lookup [root] = none) :
    s.Yields (server.createFolderChain path true) (s.chainOutcome path.prefixes (handleOf path.segments))
      (((s.recordAll [.deleteJob [root]]).withTree (s.tree.eraseBelow [root])).chained path.prefixes) := by
  have hnamed := path.named
  rw [hpath] at hnamed
  have htop : scopePath none = [] := rfl
  have hdelete := deleteItem_yields "folder" htop (hnamed root List.mem_cons_self) wf hf
  have hchain := createFolders_yields hm rest root
    ((s.recordAll [.deleteJob [root]]).withTree (s.tree.eraseBelow [root])) [] hnamed (.inl rfl) fun q hq => by
      -- all that was at or below the root is gone
      have hpre : [root] <+: q := ItemPath.head_prefix_of_mem_downFrom hq
      rw [withTree_tree, Tree.contains_eq_false_iff, Tree.get?_eraseBelow, if_pos hpre]
  rw [createFolderChain, FolderPath.prefixes, hpath]
  exact hdelete.bind hchain

/-- A chain of folders where nothing is. -/
theorem createFolderChain_new (hm : server.InMemory) (wf : s.tree.WellFormed) (hpath : path.segments = root :: rest)
    (hnew : s.tree.contains [root] = false) :
    s.Yields (server.createFolderChain path false) (s.chainOutcome path.prefixes (handleOf path.segments))
      (s.chained path.prefixes) := by
  have hnamed := path.named
  rw [hpath] at hnamed
  have hchain := createFolders_yields hm rest root s [] hnamed (.inl rfl) fun q hq => by
    -- what is absent has nothing below it
    have hpre : [root] <+: q := ItemPath.head_prefix_of_mem_downFrom hq
    refine Bool.eq_false_iff.2 fun hthere => ?_
    rw [wf.contains_of_prefix (List.cons_ne_nil root []) hpre hthere] at hnew
    cases hnew
  rw [createFolderChain, FolderPath.prefixes, hpath]
  exact hchain

/-- A chain of folders that starts where something is. -/
theorem createFolderChain_taken (hm : server.InMemory) (hpath : path.segments = root :: rest)
    (htaken : s.tree.contains [root] = true) (hf : s.folderFailures.lookup [root] = none) :
    s.Yields (server.createFolderChain path false) (.error (nameTaken root))
      ((s.recordAll [.createFolder [root]]).withoutRace [root]) := by
  have hnamed := path.named
  rw [hpath] at hnamed
  have htop : ItemPath.Named [] := fun _ h => absurd h List.not_mem_nil
  have hsub := submitFolder_taken (s := s.recordAll [.createFolder [root]]) (hnamed root List.mem_cons_self) hf
    (.inl rfl) htaken
  rw [createFolderChain, hpath]
  exact (createFolder_yields hm htop (hnamed root List.mem_cons_self) hsub).bind_error _

/-- A chain of folders whose root is made to fail. -/
theorem createFolderChain_failing (hm : server.InMemory) (hpath : path.segments = root :: rest) {status : Nat}
    (hf : s.folderFailures.lookup [root] = some status) :
    s.Yields (server.createFolderChain path false) (s.chainOutcome path.prefixes (handleOf path.segments))
      (s.chained path.prefixes) := by
  have hnamed := path.named
  rw [hpath] at hnamed
  have htop : ItemPath.Named [] := fun _ h => absurd h List.not_mem_nil
  rw [createFolderChain, FolderPath.prefixes, hpath]
  exact (createFolder_failing hm htop (hnamed root List.mem_cons_self) hf :)

/-- A chain of folders whose root was to be deleted and could not. -/
theorem createFolderChain_undeleted (server : JobServer) (hpath : path.segments = root :: rest) {status : Nat}
    (hf : s.deleteFailures.lookup [root] = some status) :
    s.Yields (server.createFolderChain path true)
      (.error (.transport (some status) ("cannot delete " ++ ItemPath.display [root])))
      (s.recordAll [.deleteJob [root]]) := by
  have hnamed := path.named
  rw [hpath] at hnamed
  have htop : scopePath none = [] := rfl
  have hdelete := deleteItem_failing "folder" htop (hnamed root List.mem_cons_self) hf
  rw [createFolderChain, hpath]
  exact hdelete.bind_error _

/-- What a chain of folders comes to that can start at its root, and the server after it. -/
structure ChainEnds (s : Server) (path : FolderPath) (root : String) (deleteRoot : Bool)
    (x : Except Error FolderHandle) (s' : Server) : Prop where
  found : s.firstTrip? path.prefixes = none → ∃ handle, x = .ok handle ∧ handle.url = Memory.baseUrl ++ path.urlPath
  refused : ∀ q, s.firstTrip? path.prefixes = some q → x = .error (s.tripFault q)
  nodes : ∀ q, s'.tree.get? q =
    if q ∈ s.made path.prefixes then some (.ofKind .folder)
    else if deleteRoot = true ∧ [root] <+: q then none else s.tree.get? q
  calls : s'.calls.toList = s.calls.toList ++ (if deleteRoot then [.deleteJob [root]] else []) ++
    (s.attempted path.prefixes).map .createFolder

/-- The server without what was at the root of a chain, if it was to be deleted. -/
def swept (s : Server) (root : String) : Bool → Server
  | true => (s.recordAll [.deleteJob [root]]).withTree (s.tree.eraseBelow [root])
  | false => s

theorem chainEnds (s : Server) (path : FolderPath) (root : String) (deleteRoot : Bool) :
    ChainEnds s path root deleteRoot (s.chainOutcome path.prefixes (handleOf path.segments))
      ((swept s root deleteRoot).chained path.prefixes) where
  found h := ⟨handleOf path.segments, by rw [chainOutcome, h], rfl⟩
  refused q h := by rw [chainOutcome, h]
  nodes q := by
    change ((swept s root deleteRoot).tree.addFolders ((swept s root deleteRoot).made path.prefixes)).get? q = _
    rw [Tree.get?_addFolders]
    cases deleteRoot with
    | true =>
      simp only [true_and]
      rw [← Tree.get?_eraseBelow]
      rfl
    | false =>
      simp only [Bool.false_eq_true, false_and, if_false]
      rfl
  calls := by
    cases deleteRoot with
    | true =>
      change ((s.recordAll [.deleteJob [root]]).recordAll
        ((s.attempted path.prefixes).map .createFolder)).calls.toList = _
      simp [recordAll]
    | false =>
      change (s.recordAll ((s.attempted path.prefixes).map .createFolder)).calls.toList = _
      simp [recordAll]

/-- What a chain of folders from a root down comes to. -/
structure RootedChain (s : Server) (path : FolderPath) (root : String) (deleteRoot : Bool)
    (x : Except Error FolderHandle) (s' : Server) : Prop where
  /-- The old root cannot be deleted. -/
  undeleted : ∀ status, deleteRoot = true → s.deleteFailures.lookup [root] = some status →
    x = .error (.transport (some status) ("cannot delete " ++ ItemPath.display [root])) ∧ s'.tree = s.tree ∧
      s'.calls.toList = s.calls.toList ++ [.deleteJob [root]]
  /-- The old root is in the way. -/
  taken : deleteRoot = false → s.tree.contains [root] = true → s.folderFailures.lookup [root] = none →
    x = .error (.transport (some 400) ("A job already exists with the name '" ++ root ++ "'")) ∧ s'.tree = s.tree ∧
      s'.calls.toList = s.calls.toList ++ [.createFolder [root]]
  ends : (deleteRoot = true → s.deleteFailures.lookup [root] = none) →
    (deleteRoot = false → s.tree.contains [root] = true → ∃ status, s.folderFailures.lookup [root] = some status) →
    ChainEnds s path root deleteRoot x s'

theorem createFolderChain_rooted (hm : server.InMemory) (wf : s.tree.WellFormed) (hpath : path.segments = root :: rest)
    (deleteRoot : Bool) :
    ∃ x s', s.Yields (server.createFolderChain path deleteRoot) x s' ∧ RootedChain s path root deleteRoot x s' := by
  have hends := chainEnds s path root deleteRoot
  cases deleteRoot with
  | true =>
    cases hf : s.deleteFailures.lookup [root] with
    | some status =>
      refine ⟨_, _, createFolderChain_undeleted server hpath hf, fun status' _ hf' => ?_,
        fun h => absurd h (by decide), fun hnone => ?_⟩
      · obtain rfl : status = status' := Option.some.inj (hf.symm.trans hf')
        exact ⟨rfl, rfl, by simp [recordAll]⟩
      · rw [hnone rfl] at hf
        cases hf
    | none =>
      refine ⟨_, _, createFolderChain_clean hm wf hpath hf, fun status _ hf' => ?_,
        fun h => absurd h (by decide), fun _ _ => hends⟩
      rw [hf] at hf'
      cases hf'
  | false =>
    cases hthere : s.tree.contains [root] with
    | false =>
      refine ⟨_, _, createFolderChain_new hm wf hpath hthere, fun _ h => absurd h Bool.false_ne_true,
        fun _ h => ?_, fun _ _ => hends⟩
      rw [hthere] at h
      cases h
    | true =>
      cases hf : s.folderFailures.lookup [root] with
      | some status =>
        refine ⟨_, _, createFolderChain_failing hm hpath hf, fun _ h => absurd h Bool.false_ne_true,
          fun _ _ hnone => ?_, fun _ _ => hends⟩
        rw [hf] at hnone
        cases hnone
      | none =>
        refine ⟨_, _, createFolderChain_taken hm hpath hthere hf, fun _ h => absurd h Bool.false_ne_true,
          fun _ _ _ => ?_, fun _ hfailing => ?_⟩
        · exact ⟨rfl, rfl, by simp [recordAll, withoutRace]⟩
        · obtain ⟨status, hstatus⟩ := hfailing rfl hthere
          rw [hf] at hstatus
          cases hstatus

/-- **A chain of folders**, from a clean slate or not: nothing is changed if there is no path, the old root cannot be
deleted, or it is in the way; else the chain ends with the first folder whose creation reports an error. -/
theorem createFolderChain_outcome (hm : server.InMemory) (wf : s.tree.WellFormed) (path : FolderPath)
    (deleteRoot : Bool) : ∃ x s', s.Yields (server.createFolderChain path deleteRoot) x s' ∧
      (path.segments = [] → x = .error (.invalidPath "cannot create an empty folder chain") ∧ s' = s) ∧
      ∀ root, path.root? = some root → RootedChain s path root deleteRoot x s' := by
  cases hpath : path.segments with
  | nil =>
    refine ⟨_, s, ?_, fun _ => ⟨rfl, rfl⟩, fun root hroot => ?_⟩
    · rw [createFolderChain, hpath]
      exact yields_throw s _
    · rw [FolderPath.root?, hpath] at hroot
      cases hroot
  | cons first rest =>
    obtain ⟨x, s', hy, hrooted⟩ := createFolderChain_rooted hm wf hpath deleteRoot
    refine ⟨x, s', hy, fun h => absurd h (List.cons_ne_nil _ _), fun root hroot => ?_⟩
    rw [FolderPath.root?, hpath] at hroot
    cases hroot
    exact hrooted

end

/-- A folder with something in it, at the root of a chain that fails further down, where a rival is faster before. -/
def rivalled : Server :=
  { Server.empty with
    tree := ((Tree.empty.insert ["ci"] (.ofKind .folder)).insert ["ci", "old"] (.ofKind .job)).insert ["ci2"]
      (.ofKind .folder)
    racing := [["other"], ["ci", "a b"]]
    folderFailures := [(["ci", "a b", "c"], 503)] }

def rivalledPath : FolderPath := ⟨["ci", "a b", "c", "d"], by decide⟩

theorem createFolderChain_outcome_rivalled :
    (ofUrl Memory.baseUrl).InMemory ∧ rivalled.tree.WellFormed ∧
      (∃ s', rivalled.Yields ((ofUrl Memory.baseUrl).createFolderChain rivalledPath true)
          (.error (.transport (some 400) "A job already exists with the name 'a b'")) s' ∧
        s'.tree.get? ["ci", "a b"] = some (.ofKind .folder) ∧ s'.tree.get? ["ci", "a b", "c"] = none ∧
        s'.tree.get? ["ci", "old"] = none ∧ s'.tree.get? ["ci2"] = some (.ofKind .folder) ∧
        s'.calls.toList = [.deleteJob ["ci"], .createFolder ["ci"], .createFolder ["ci", "a b"]]) ∧
      ∃ s', rivalled.Yields ((ofUrl Memory.baseUrl).createFolderChain rivalledPath false)
          (.error (.transport (some 400) "A job already exists with the name 'ci'")) s' ∧
        s'.tree = rivalled.tree := by
  have wf : rivalled.tree.WellFormed := by decide
  refine ⟨inMemory_ofUrl, wf, ?_, ?_⟩
  · obtain ⟨x, s', hy, -, hrooted⟩ := createFolderChain_outcome inMemory_ofUrl wf rivalledPath true
    obtain ⟨-, hrefused, hnodes, hcalls⟩ := (hrooted "ci" rfl).ends (by decide) fun h => absurd h (by decide)
    obtain rfl := hrefused ["ci", "a b"] (by decide)
    refine ⟨s', hy, ?_, ?_, ?_, ?_, hcalls.trans (by decide)⟩ <;> rw [hnodes] <;> decide
  · obtain ⟨x, s', hy, -, hrooted⟩ := createFolderChain_outcome inMemory_ofUrl wf rivalledPath false
    obtain ⟨rfl, htree, -⟩ := (hrooted "ci" rfl).taken rfl (by decide) (by decide)
    exact ⟨s', hy, htree⟩

end JobServer

end JobHierarchy
