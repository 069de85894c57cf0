import JobHierarchy.Builds
import JobHierarchy.Proofs.Outcomes
import JobHierarchy.Proofs.Trees
/-!
# Running builds

The builds of an item are looked at one by one, the newest first, and those without a result are stopped
(`JobServer.stopRunning_yields`). A build that has been stopped does not change what is still to come, so
which builds are stopped can be read off the item as it was. For many items, one after the other, so can
they be read off the tree as it was (`Tree.runningBuilds`, `Tree.stopAt`), as long as no item comes twice.
-/

namespace JobHierarchy

namespace Memory

/-! ## Builds of an item -/

namespace Node

/-- The numbers of the builds, the newest first. -/
def numbers (node : Node) : List Nat := (List.range' 1 node.builds.length).reverse

/-- The numbers that a listing shows: a count of builds has 32 bits. -/
def listed (node : Node) : List Nat := (List.range' 1 (node.builds.length % UInt32.size)).reverse

/-- There is a build `number`, and it has no result. -/
def runs (node : Node) (number : Nat) : Bool := 0 < number && node.builds[number - 1]? == some none

/-- The numbers of the builds that run, the newest first. -/
def running (node : Node) : List Nat := node.numbers.filter node.runs

/-- The item with certain builds stopped; a build that has a result keeps it. -/
def stopAmong (node : Node) (numbers : List Nat) : Node :=
  { node with builds := node.builds.mapIdx fun i result =>
      if i + 1 ∈ numbers then some (result.getD .aborted) else result }

/-- The item with no build left running. -/
def stopped (node : Node) : Node :=
  { node with builds := node.builds.map fun result => some (result.getD .aborted) }

variable {node : Node} {number : Nat} {numbers : List Nat}

theorem mem_numbers : number ∈ node.numbers ↔ 0 < number ∧ number ≤ node.builds.length := by
  rw [numbers, List.mem_reverse, List.mem_range'_1]
  omega

theorem numbers_nodup (node : Node) : node.numbers.Nodup := List.nodup_reverse.2 (List.nodup_range' 1)

theorem listed_nodup (node : Node) : node.listed.Nodup := List.nodup_reverse.2 (List.nodup_range' 1)

theorem mem_numbers_of_mem_listed (h : number ∈ node.listed) : number ∈ node.numbers := by
  rw [listed, List.mem_reverse, List.mem_range'_1] at h
  have hle := Nat.mod_le node.builds.length UInt32.size
  exact mem_numbers.2 ⟨by omega, by omega⟩

theorem listed_eq_numbers (h : node.builds.length < UInt32.size) : node.listed = node.numbers := by
  rw [listed, numbers, Nat.mod_eq_of_lt h]

theorem mem_running : number ∈ node.running ↔ 0 < number ∧ node.builds[number - 1]? = some none := by
  rw [running, List.mem_filter, mem_numbers, runs, Bool.and_eq_true, decide_eq_true_eq, beq_iff_eq]
  constructor
  · rintro ⟨-, h⟩
    exact h
  · rintro ⟨h0, h⟩
    have := (List.getElem?_eq_some_iff.1 h).1
    exact ⟨⟨h0, by omega⟩, h0, h⟩

theorem mem_running_of_runs (h : node.runs number = true) : number ∈ node.running := by
  rw [runs, Bool.and_eq_true, decide_eq_true_eq, beq_iff_eq] at h
  exact mem_running.2 h

theorem exists_build (hn : number ∈ node.numbers) : ∃ latest, node.builds[number - 1]? = some latest := by
  obtain ⟨h0, hlen⟩ := mem_numbers.1 hn
  exact ⟨_, List.getElem?_eq_getElem (by omega)⟩

/-- A build that does not run has a result. -/
theorem exists_result (hn : number ∈ node.numbers) (h : node.runs number = false) :
    ∃ result, node.builds[number - 1]? = some (some result) := by
  obtain ⟨latest, hb⟩ := exists_build hn
  rw [runs, decide_eq_true (mem_numbers.1 hn).1, Bool.true_and, hb] at h
  cases latest with
  | none => cases h
  | some result => exact ⟨result, hb⟩

theorem getElem?_stopAmong (node : Node) (numbers : List Nat) (i : Nat) :
    (node.stopAmong numbers).builds[i]? =
      node.builds[i]?.map fun result => if i + 1 ∈ numbers then some (result.getD .aborted) else result := by
  rw [stopAmong, List.getElem?_mapIdx]

theorem stopAmong_nil (node : Node) : node.stopAmong [] = node := by
  simp [stopAmong, List.mapIdx_eq_zipIdx_map]

theorem stopAmong_numbers (node : Node) : node.stopAmong node.numbers = node.stopped := by
  have hbuilds : (node.stopAmong node.numbers).builds = node.stopped.builds := by
    refine List.ext_getElem? fun i => ?_
    rw [getElem?_stopAmong, stopped, List.getElem?_map]
    cases h : node.builds[i]? with
    | none => rfl
    | some result =>
      have hi := (List.getElem?_eq_some_iff.1 h).1
      rw [Option.map_some, Option.map_some, if_pos (mem_numbers.2 ⟨by omega, by omega⟩)]
  cases node
  exact congrArg _ hbuilds

/-- One build stopped and then others. -/
theorem stopAmong_cons (node : Node) (number : Nat) (numbers : List Nat) :
    (node.stopAmong [number]).stopAmong numbers = node.stopAmong (number :: numbers) := by
  have hbuilds :
      ((node.stopAmong [number]).stopAmong numbers).builds = (node.stopAmong (number :: numbers)).builds := by
    refine List.ext_getElem? fun i => ?_
    rw [getElem?_stopAmong, getElem?_stopAmong, getElem?_stopAmong, Option.map_map]
    congr 1
    funext result
    by_cases h₁ : i + 1 = number <;> by_cases h₂ : i + 1 ∈ numbers <;> simp [h₁, h₂]
  exact congrArg _ hbuilds

/-- Stopping one build is nothing to the others. -/
theorem runs_stopAmong_singleton {other : Nat} (h : other ≠ number) :
    (node.stopAmong [number]).runs other = node.runs other := by
  unfold runs
  rw [getElem?_stopAmong]
  by_cases h0 : 0 < other
  · have hne : other - 1 + 1 ∉ [number] := by rw [List.mem_singleton]; omega
    simp only [if_neg hne, Option.map_id']
  · simp [h0]

/-- A build that has a result stays as it is. -/
theorem stopAmong_singleton_of_not_runs (h0 : 0 < number) (h : node.runs number = false) :
    node.stopAmong [number] = node := by
  have hbuilds : (node.stopAmong [number]).builds = node.builds := by
    refine List.ext_getElem? fun i => ?_
    rw [getElem?_stopAmong]
    by_cases hi : i + 1 = number
    · subst hi
      rw [runs, decide_eq_true h0, Bool.true_and, Nat.add_sub_cancel] at h
      rcases hg : node.builds[i]? with _ | _ | result
      · rfl
      · rw [hg] at h; simp at h
      · simp
    · simp [hi]
  cases node
  exact congrArg _ hbuilds

/-- Stopping one build sets it, if it has no result. -/
theorem stopAmong_singleton {result : Option BuildResult} (h0 : 0 < number)
    (hb : node.builds[number - 1]? = some result) :
    node.stopAmong [number] = { node with builds := node.builds.set (number - 1) (some (result.getD .aborted)) } := by
  have hlen := (List.getElem?_eq_some_iff.1 hb).1
  have hbuilds : (node.stopAmong [number]).builds = node.builds.set (number - 1) (some (result.getD .aborted)) := by
    refine List.ext_getElem? fun i => ?_
    rw [getElem?_stopAmong, List.getElem?_set]
    by_cases hi : number - 1 = i
    · subst hi
      rw [hb, if_pos rfl, if_pos hlen, Option.map_some, if_pos (by rw [List.mem_singleton]; omega)]
    · have hne : i + 1 ∉ [number] := by rw [List.mem_singleton]; omega
      simp only [if_neg hi, if_neg hne, Option.map_id']
  exact congrArg (fun builds => { node with builds }) hbuilds

/-- A build that runs gets its result. -/
theorem setBuild?_of_runs (h : node.runs number = true) :
    Server.setBuild? number (some .aborted) node.builds = some (node.stopAmong [number]).builds := by
  rw [runs, Bool.and_eq_true, decide_eq_true_eq, beq_iff_eq] at h
  obtain ⟨h0, h⟩ := h
  have hlen := (List.getElem?_eq_some_iff.1 h).1
  rw [Server.setBuild?, if_pos ⟨h0, by omega⟩, stopAmong_singleton h0 h]
  rfl

end Node

/-! ## Builds of many items -/

namespace Tree

variable {tree : Tree} {path q : ItemPath} {node : Node} {paths : List ItemPath}

/-- No item has so many builds that their numbers run out. -/
def Numbered (tree : Tree) : Prop := ∀ e ∈ tree.entries, e.2.builds.length < UInt32.size

instance (tree : Tree) : Decidable tree.Numbered :=
  inferInstanceAs (Decidable (∀ e ∈ tree.entries, e.2.builds.length < UInt32.size))

theorem numbered_iff : tree.Numbered ↔ ∀ q node, tree.get? q = some node → node.builds.length < UInt32.size :=
  ⟨fun h q node hq => h (q, node) (get?_eq_some_iff.1 hq), fun h e he => h e.1 e.2 (get?_eq_some_iff.2 he)⟩

theorem Numbered.insert_stopped (hnum : tree.Numbered) (h : tree.get? path = some node) :
    (tree.insert path node.stopped).Numbered := by
  refine numbered_iff.2 fun q n hq => ?_
  rw [get?_insert] at hq
  split at hq
  · rw [← Option.some.inj hq, Node.stopped, List.length_map]
    exact numbered_iff.1 hnum _ _ h
  · exact numbered_iff.1 hnum _ _ hq

/-- The running builds of the items at the paths: the items in the order of the paths, and of one item the
newest build first. -/
def runningBuilds (tree : Tree) (paths : List ItemPath) : List (ItemPath × Nat) :=
  paths.flatMap fun q => ((tree.get? q).elim [] Node.running).map fun number => (q, number)

/-- The tree with no build left running at the paths. -/
def stopAt (tree : Tree) (paths : List ItemPath) : Tree where
  entries := tree.entries.map fun e => (e.1, if e.1 ∈ paths then e.2.stopped else e.2)
  ascending := List.pairwise_map.2 tree.ascending

theorem mem_runningBuilds {number : Nat} : (q, number) ∈ tree.runningBuilds paths ↔
    q ∈ paths ∧ ∃ node, tree.get? q = some node ∧ 0 < number ∧ node.builds[number - 1]? = some none := by
  simp only [runningBuilds, List.mem_flatMap, List.mem_map, Prod.mk.injEq]
  constructor
  · rintro ⟨p, hp, n, hn, rfl, rfl⟩
    cases hg : tree.get? p with
    | none => rw [hg] at hn; cases hn
    | some node => rw [hg] at hn; exact ⟨hp, node, rfl, Node.mem_running.1 hn⟩
  · rintro ⟨hq, node, hg, hn⟩
    exact ⟨q, hq, number, by rw [hg]; exact Node.mem_running.2 hn, rfl, rfl⟩

theorem runningBuilds_nodup (h : paths.Nodup) : (tree.runningBuilds paths).Nodup := by
  refine List.nodup_flatMap.2 ⟨fun p _ => ?_, h.imp fun {p p'} hne => ?_⟩
  · refine List.Nodup.map (fun a b e => (Prod.mk.inj e).2) ?_
    cases tree.get? p with
    | none => exact List.nodup_nil
    | some node => exact node.numbers_nodup.filter _
  · rintro ⟨q, number⟩ h₁ h₂
    obtain ⟨_, _, e₁⟩ := List.mem_map.1 h₁
    obtain ⟨_, _, e₂⟩ := List.mem_map.1 h₂
    exact hne ((Prod.mk.inj e₁).1.trans (Prod.mk.inj e₂).1.symm)

theorem runningBuilds_cons (h : tree.get? q = some node) (paths : List ItemPath) :
    tree.runningBuilds (q :: paths) = node.running.map (fun number => (q, number)) ++ tree.runningBuilds paths := by
  rw [runningBuilds, List.flatMap_cons, h]
  rfl

/-- Changing an item is nothing to the builds of others. -/
theorem runningBuilds_insert (h : q ∉ paths) : (tree.insert q node).runningBuilds paths = tree.runningBuilds paths :=
  List.flatMap_congr fun p hp => by
    have hne : p ≠ q := fun e => h (e ▸ hp)
    rw [get?_insert_ne _ _ hne]

theorem get?_stopAt (tree : Tree) (paths : List ItemPath) (q : ItemPath) :
    (tree.stopAt paths).get? q = if q ∈ paths then (tree.get? q).map Node.stopped else tree.get? q := by
  have h := lookup_mapValues (fun p node => if p ∈ paths then node.stopped else node) q tree.entries
  unfold get? stopAt
  rw [h]
  by_cases hq : q ∈ paths <;> simp [hq]

theorem stopAt_nil (tree : Tree) : tree.stopAt [] = tree :=
  ext fun q => by rw [get?_stopAt, if_neg List.not_mem_nil]

theorem stopAt_insert (h : tree.get? q = some node) (hq : q ∉ paths) :
    (tree.insert q node.stopped).stopAt paths = tree.stopAt (q :: paths) := by
  refine ext fun p => ?_
  rw [get?_stopAt, get?_stopAt, get?_insert]
  by_cases hp : p = q
  · subst hp
    rw [if_neg hq, if_pos rfl, if_pos List.mem_cons_self, h, Option.map_some]
  · simp [hp]

end Tree

/-! ## Requests about builds -/

/-- The handle of a build. -/
def buildHandle (path : ItemPath) (number : Nat) : BuildHandle := ⟨number, urlOf path ++ toString number ++ "/"⟩

theorem buildPath_buildHandle {path : ItemPath} (h : path.Named) (number : Nat) :
    buildPath (buildHandle path number) = path := pathOf_buildUrl h number

namespace Server

variable {s : Server} {path : ItemPath} {node : Node} {number : Nat}

/-- The server with an item changed. -/
def withNode (s : Server) (path : ItemPath) (node : Node) : Server := s.withTree (s.tree.insert path node)

theorem withNode_eq_self (h : s.tree.get? path = some node) : s.withNode path node = s := by
  rw [withNode, Tree.insert_get? h, withTree]

theorem withNode_withNode (s : Server) (path : ItemPath) (node node' : Node) :
    (s.withNode path node).withNode path node' = s.withNode path node' := by
  simp only [withNode, withTree, Tree.insert_insert]

theorem recordAll_withNode (s : Server) (path : ItemPath) (node : Node) (calls : List Call) :
    (s.withNode path node).recordAll calls = (s.recordAll calls).withNode path node := rfl

theorem result_eq (h : s.tree.get? path = some node) (hn : number ∈ node.numbers) :
    s.result path number = .ok (node.builds[number - 1]?.join) := by
  obtain ⟨latest, hb⟩ := Node.exists_build hn
  have hnode : s.node path = .ok node := by rw [Server.node, h]
  simp only [result, hnode, if_neg (Nat.pos_iff_ne_zero.1 (Node.mem_numbers.1 hn).1), bind, Except.bind, hb,
    Option.join_some]
  rfl

theorem yields_buildResult (hp : path.Named) (h : s.tree.get? path = some node) (hn : number ∈ node.numbers) :
    s.Yields (Operation.ask (.buildResult (buildHandle path number))) (.ok (node.builds[number - 1]?.join))
      (s.recordAll [.buildResult path number]) := by
  have hask := s.yields_ask (.buildResult (buildHandle path number))
  have hresult := result_eq (s := s.recordAll [.buildResult path number]) h hn
  simp only [perform, answer, callOf, buildPath_buildHandle hp, record_eq_recordAll] at hask
  simp only [buildHandle, hresult] at hask
  exact hask

/-- Stopping a build that runs. -/
theorem stopBuild_eq (h : s.tree.get? path = some node) (hr : number ∈ node.running) :
    s.stopBuild path number = .ok (s.tree.insert path (node.stopAmong [number])) := by
  obtain ⟨hn, hruns⟩ := List.mem_filter.1 hr
  have hnode : s.node path = .ok node := by rw [Server.node, h]
  have hresult : s.result path number = .ok none := by
    rw [result_eq h hn, (Node.mem_running.1 hr).2]
    rfl
  simp only [stopBuild, hresult, withResult, hnode, bind, Except.bind, Node.setBuild?_of_runs hruns]
  rfl

/-- Stopping a build, whether or not it runs. -/
theorem stopBuild_of_mem_numbers (h : s.tree.get? path = some node) (hn : number ∈ node.numbers) :
    s.stopBuild path number = .ok (s.tree.insert path (node.stopAmong [number])) := by
  cases hr : node.runs number with
  | true => exact stopBuild_eq h (Node.mem_running_of_runs hr)
  | false =>
    obtain ⟨result, hb⟩ := Node.exists_result hn hr
    have hresult : s.result path number = .ok (some result) := by
      rw [result_eq h hn, hb, Option.join_some]
    rw [Node.stopAmong_singleton_of_not_runs (Node.mem_numbers.1 hn).1 hr, Tree.insert_get? h]
    simp only [stopBuild, hresult, bind, Except.bind]
    rfl

theorem yields_stopBuild_of_mem_numbers (hp : path.Named) (h : s.tree.get? path = some node)
    (hn : number ∈ node.numbers) :
    s.Yields (Operation.ask (.stopBuild (buildHandle path number))) (.ok ())
      ((s.recordAll [.stopBuild path number]).withNode path (node.stopAmong [number])) := by
  have hask := s.yields_ask (.stopBuild (buildHandle path number))
  have hstop := stopBuild_of_mem_numbers (s := s.recordAll [.stopBuild path number]) h hn
  simp only [perform, answer, callOf, buildPath_buildHandle hp, record_eq_recordAll] at hask
  simp only [buildHandle, hstop] at hask
  exact hask

theorem yields_stopBuild (hp : path.Named) (h : s.tree.get? path = some node) (hr : number ∈ node.running) :
    s.Yields (Operation.ask (.stopBuild (buildHandle path number))) (.ok ())
      ((s.recordAll [.stopBuild path number]).withNode path (node.stopAmong [number])) :=
  yields_stopBuild_of_mem_numbers hp h (List.mem_filter.1 hr).1

/-- The listing of an item's builds is one of the numbers that fit into it, by whatever reference it is asked for. -/
theorem yields_listing {job : JobRef} (hj : jobPath job = path) (h : s.tree.get? path = some node)
    (hf : s.listingFailures.lookup path = none) :
    s.Yields (Operation.ask (.listBuilds job)) (.ok (node.listed.map (buildHandle path)))
      (s.recordAll [.listBuilds path]) := by
  have hask := s.yields_ask (.listBuilds job)
  have hlist : (s.recordAll [.listBuilds path]).listBuilds path = .ok (node.listed.map (buildHandle path)) := by
    have hnode : (s.recordAll [.listBuilds path]).node path = .ok node := by
      rw [Server.node, recordAll_tree, h]
    have hf' : (s.recordAll [.listBuilds path]).listingFailures.lookup path = none := hf
    simp only [listBuilds, hf', hnode, bind, Except.bind, ← List.map_reverse]
    rfl
  simp only [perform, answer, callOf, hj, record_eq_recordAll, hlist] at hask
  exact hask

section
variable {above : ItemPath} {name : String}

theorem yields_listed (ha : above.Named) (hn : IsItemName name) (h : s.tree.get? (above ++ [name]) = some node)
    (hf : s.listingFailures.lookup (above ++ [name]) = none) :
    s.Yields (Operation.ask (.listBuilds ⟨scopeOf above, name⟩))
      (.ok (node.listed.map (buildHandle (above ++ [name])))) (s.recordAll [.listBuilds (above ++ [name])]) :=
  yields_listing (jobPath_scopeOf ha hn) h hf

/-- The listing of an item's builds is one of its numbers. -/
theorem yields_listBuilds (ha : above.Named) (hn : IsItemName name) (h : s.tree.get? (above ++ [name]) = some node)
    (hf : s.listingFailures.lookup (above ++ [name]) = none) (hlen : node.builds.length < UInt32.size) :
    s.Yields (Operation.ask (.listBuilds ⟨scopeOf above, name⟩))
      (.ok (node.numbers.map (buildHandle (above ++ [name])))) (s.recordAll [.listBuilds (above ++ [name])]) := by
  rw [← Node.listed_eq_numbers hlen]
  exact yields_listed ha hn h hf

theorem yields_listBuilds_failing {status : Nat} (ha : above.Named) (hn : IsItemName name)
    (hf : s.listingFailures.lookup (above ++ [name]) = some status) :
    s.Yields (Operation.ask (.listBuilds ⟨scopeOf above, name⟩))
      (.error (.transport (some status) ("cannot list builds of " ++ (above ++ [name]).display)))
      (s.recordAll [.listBuilds (above ++ [name])]) := by
  have hask := s.yields_ask (.listBuilds ⟨scopeOf above, name⟩)
  have hlist : (s.recordAll [.listBuilds (above ++ [name])]).listBuilds (above ++ [name]) =
      .error (.transport (some status) ("cannot list builds of " ++ (above ++ [name]).display)) := by
    have hf' : (s.recordAll [.listBuilds (above ++ [name])]).listingFailures.lookup (above ++ [name]) =
        some status := hf
    simp only [listBuilds, hf', bind, Except.bind]
    rfl
  simp only [perform, answer, callOf, jobPath_scopeOf ha hn, record_eq_recordAll, hlist] at hask
  exact hask

end

end Server

/-- The requests about one build: what became of it, and to stop it if it runs. -/
def stopCalls (path : ItemPath) (node : Node) (number : Nat) : List Call :=
  .buildResult path number :: if node.runs number then [.stopBuild path number] else []

end Memory

namespace JobServer

open Memory Memory.Server

variable {path : ItemPath}

/-- **The builds of one item**: those that run are stopped and counted, in the order of the list. -/
theorem stopRunning_yields (shown : String) (hp : path.Named) : ∀ {numbers : List Nat} {s : Server} {node : Node},
    s.tree.get? path = some node → numbers.Nodup → (∀ n ∈ numbers, n ∈ node.numbers) →
    s.Yields (stopRunning shown (numbers.map (buildHandle path))) (.ok (numbers.filter node.runs).length)
      ((s.recordAll (numbers.flatMap (stopCalls path node))).withNode path (node.stopAmong numbers))
  | [], s, node, h, _, _ => by
    rw [Node.stopAmong_nil, List.flatMap_nil, recordAll_nil, withNode_eq_self h]
    exact s.yields_pure 0
  | n :: rest, s, node, h, hnodup, hmem => by
    obtain ⟨hnot, hnodup⟩ := List.nodup_cons.1 hnodup
    have hn := hmem n List.mem_cons_self
    have hrest : ∀ m ∈ rest, m ∈ node.numbers := fun m hm => hmem m (List.mem_cons_of_mem _ hm)
    have hlook := s.yields_buildResult hp h hn
    rw [List.map_cons, stopRunning]
    cases hr : node.runs n with
    | false =>
      obtain ⟨result, hresult⟩ := Node.exists_result hn hr
      have ih := stopRunning_yields shown hp (s := s.recordAll [.buildResult path n]) h hnodup hrest
      rw [hresult] at hlook
      rw [← Node.stopAmong_cons, Node.stopAmong_singleton_of_not_runs (Node.mem_numbers.1 hn).1 hr,
        List.filter_cons_of_neg (by simp [hr]), List.flatMap_cons, stopCalls, hr, ← recordAll_recordAll]
      exact hlook.bind ih
    | true =>
      have hrunning := Node.mem_running_of_runs hr
      have hstop := (s.recordAll [.buildResult path n]).yields_stopBuild hp h hrunning
      -- the builds still to come are as they were
      have hkeep : ∀ m ∈ rest, (node.stopAmong [n]).runs m = node.runs m := by
        intro m hm
        exact Node.runs_stopAmong_singleton fun e => hnot (e ▸ hm)
      have ih := stopRunning_yields shown hp
        (s := ((s.recordAll [.buildResult path n]).recordAll [.stopBuild path n]).withNode path (node.stopAmong [n]))
        (Tree.get?_insert_self _ _ _) hnodup fun m hm => by
          rw [Node.mem_numbers, Node.stopAmong, List.length_mapIdx]
          exact Node.mem_numbers.1 (hrest m hm)
      rw [List.filter_congr hkeep, recordAll_withNode, withNode_withNode, Node.stopAmong_cons] at ih
      rw [(Node.mem_running.1 hrunning).2] at hlook
      have hcalls : (n :: rest).flatMap (stopCalls path node) =
          [.buildResult path n] ++ [.stopBuild path n] ++ rest.flatMap (stopCalls path (node.stopAmong [n])) := by
        have hrest' : rest.flatMap (stopCalls path (node.stopAmong [n])) = rest.flatMap (stopCalls path node) :=
          List.flatMap_congr fun m hm => by rw [stopCalls, stopCalls, hkeep m hm]
        rw [hrest', List.flatMap_cons, stopCalls, hr]
        rfl
      rw [List.filter_cons_of_pos hr, List.length_cons, hcalls, ← recordAll_recordAll, ← recordAll_recordAll]
      exact hlook.bind (hstop.bind ((yields_report _ _ _).bind (ih.bind (yields_pure _ _))))

end JobServer

end JobHierarchy
