import JobHierarchy.Proofs.Abort
import JobHierarchy.Proofs.Confinement
import JobHierarchy.Proofs.Items
import JobHierarchy.Proofs.Waiting
/-!
# What operations confine themselves to

An operation on items at or below one top-level item makes requests about such items only, so it is confined
to that part of the server. This goes for the walk to a folder, for the creation and deletion of folders and
jobs, and for all that is done with builds.

The walk that stops builds is the one operation that asks how many items there are in all. It takes the answer
as a bound on its visits, and any bound that is large enough comes to the same
(`JobServer.abortPending_enough`); so it is confined as well (`JobServer.confined_abortAllBuilds`).
-/

namespace JobHierarchy

open Memory Memory.Server

namespace JobServer

variable {server : JobServer} {top : String} {above : ItemPath} {name : String} {folder : FolderPath}

/-! ## Requests about an item -/

section
variable (ha : above.Named) (hn : IsItemName name) (h : ItemPath.Under top (above ++ [name]))
include ha hn h

theorem confined_getJob : Operation.Confined top (Operation.ask (.getJob (scopeOf above) name))
    fun found => ∀ job, found = some job → job = ⟨scopeOf above, name⟩ := by
  refine Operation.confined_ask ?_ (fun _ hname => by cases hname) fun s _ found hfound job hjob => ?_
  · rw [callOf, Call.path, scopePath_scopeOf ha, ItemPath.item_eq hn]
    exact h
  · rw [perform_getJob s ha hn] at hfound
    cases hfound
    split at hjob
    · exact (Option.some.inj hjob).symm
    · cases hjob

theorem confined_folderView : Operation.Confined top (Operation.ask (.folderView ⟨scopeOf above, name⟩))
    fun found => ∀ view, found = some view →
      view.handle = handleOf (above ++ [name]) ∧ ∀ child ∈ view.jobs, IsItemName child := by
  refine Operation.confined_ask ?_ (fun _ hname => by cases hname) fun s wf found hfound view hview => ?_
  · rw [callOf, Call.path, jobPath_scopeOf ha hn]
    exact h
  · rw [perform_folderView s ha hn] at hfound
    obtain ⟨node, hnode, hfound⟩ := Except.bind_eq_ok hfound
    have hnode := node_eq_ok hnode
    split at hfound
    · cases hfound
      cases hview
    · cases hfound
      cases hview
      refine ⟨ofUrl_urlOf _, fun child hchild => ?_⟩
      exact wf.named _ (Tree.mem_children.1 hchild) child (by simp)

theorem confined_createJob_request (definition : String) :
    Operation.Confined top (Operation.ask (.createJob (scopeOf above) name definition)) fun _ => True := by
  refine Operation.confined_ask ?_ (fun _ hname => Option.some.inj hname ▸ hn) fun _ _ _ _ => trivial
  rw [callOf, Call.path, scopePath_scopeOf ha, ItemPath.item_eq hn]
  exact h

theorem confined_deleteJob_request :
    Operation.Confined top (Operation.ask (.deleteJob (scopeOf above) name)) fun _ => True := by
  refine Operation.confined_ask ?_ (fun _ hname => by cases hname) fun _ _ _ _ => trivial
  rw [callOf, Call.path, scopePath_scopeOf ha, ItemPath.item_eq hn]
  exact h

theorem confined_triggerBuild :
    Operation.Confined top (Operation.ask (.triggerBuild ⟨scopeOf above, name⟩)) fun _ => True := by
  refine Operation.confined_ask ?_ (fun _ hname => by cases hname) fun _ _ _ _ => trivial
  rw [callOf, Call.path, jobPath_scopeOf ha hn]
  exact h

theorem confined_listBuilds : Operation.Confined top (Operation.ask (.listBuilds ⟨scopeOf above, name⟩))
    fun builds => ∀ build ∈ builds, ∃ number, build = buildHandle (above ++ [name]) number := by
  refine Operation.confined_ask ?_ (fun _ hname => by cases hname) fun s _ builds hbuilds build hbuild => ?_
  · rw [callOf, Call.path, jobPath_scopeOf ha hn]
    exact h
  · have hlisted : s.listBuilds (jobPath ⟨scopeOf above, name⟩) = .ok builds := hbuilds
    rw [jobPath_scopeOf ha hn, listBuilds] at hlisted
    split at hlisted
    · cases hlisted
    · obtain ⟨node, -, hlisted⟩ := Except.bind_eq_ok hlisted
      cases hlisted
      obtain ⟨number, -, rfl⟩ := List.mem_map.1 (List.mem_reverse.1 hbuild)
      exact ⟨number, rfl⟩

theorem confined_submitFolder (definition : String) (credentials : Option Credentials) :
    Operation.Confined top (Operation.ask (.submitFolder (urlOf above) name definition credentials))
      fun _ => True := by
  refine Operation.confined_ask ?_ (fun _ hname => Option.some.inj hname ▸ hn) fun _ _ _ _ => trivial
  rw [callOf, Call.path, pathOf_urlOf ha, ItemPath.item_eq hn]
  exact h

end

/-! ## Requests about a build -/

section
variable {path : ItemPath} (hp : path.Named) (h : path.Under top)
include hp h

theorem confined_buildResult (number : Nat) :
    Operation.Confined top (Operation.ask (.buildResult (buildHandle path number))) fun _ => True := by
  refine Operation.confined_ask ?_ (fun _ hname => by cases hname) fun _ _ _ _ => trivial
  rw [callOf, Call.path, buildPath_buildHandle hp]
  exact h

theorem confined_stopBuild (number : Nat) :
    Operation.Confined top (Operation.ask (.stopBuild (buildHandle path number))) fun _ => True := by
  refine Operation.confined_ask ?_ (fun _ hname => by cases hname) fun _ _ _ _ => trivial
  rw [callOf, Call.path, buildPath_buildHandle hp]
  exact h

theorem confined_stopRunning (shown : String) : ∀ builds : List BuildHandle,
    (∀ build ∈ builds, ∃ number, build = buildHandle path number) →
    Operation.Confined top (stopRunning shown builds) fun _ => True
  | [], _ => Operation.confined_pure trivial
  | build :: rest, hbuilds => by
    obtain ⟨number, rfl⟩ := hbuilds build List.mem_cons_self
    have hrest := confined_stopRunning shown rest fun b hb => hbuilds b (List.mem_cons_of_mem _ hb)
    rw [stopRunning]
    refine (confined_buildResult hp h number).bind fun result _ => ?_
    cases result with
    | some _ => exact hrest
    | none =>
      exact (confined_stopBuild hp h number).bind fun _ _ => (Operation.confined_report _ _).bind fun _ _ =>
        hrest.bind fun _ _ => Operation.confined_pure trivial

end

/-! ## Finding an item -/

theorem confined_resolveBelow (server : JobServer) : ∀ (names : List String) (above : ItemPath),
    ItemPath.Named (above ++ names) → ItemPath.Under top (above ++ names) →
    Operation.Confined top (server.resolveBelow false above (scopeOf above) names)
      fun scope => scope = scopeOf (above ++ names)
  | [], above, _, _ => by
    rw [resolveBelow, List.append_nil]
    exact Operation.confined_pure rfl
  | name :: rest, above, hnamed, h => by
    obtain ⟨ha, hr⟩ := ItemPath.named_append.1 hnamed
    have hn : IsItemName name := hr name List.mem_cons_self
    have hsplit : above ++ name :: rest = above ++ [name] ++ rest := List.append_cons _ _ _
    have hhere : ItemPath.Under top (above ++ [name]) := h.of_prefix ⟨rest, hsplit.symm⟩ (by simp)
    have hrest := confined_resolveBelow server rest (above ++ [name]) (hsplit ▸ hnamed) (hsplit ▸ h)
    rw [resolveBelow, hsplit]
    refine (confined_getJob ha hn hhere).bind fun found hfound => ?_
    cases found with
    | none => exact Operation.Confined.bind (Operation.confined_throw _ (P := fun _ => False)) fun _ hf => hf.elim
    | some job =>
      cases hfound job rfl
      refine (Operation.confined_pure rfl).bind fun job hjob => ?_
      subst hjob
      refine (confined_folderView ha hn hhere).bind fun found hfound => ?_
      cases found with
      | none => exact Operation.confined_throw _
      | some view =>
        rw [scopeOf_append_singleton] at hrest
        dsimp only
        rw [(hfound view rfl).1]
        exact hrest

theorem confined_resolve (server : JobServer) (h : ItemPath.Under top folder.segments) :
    Operation.Confined top (server.resolve folder false) fun scope => scope = scopeOf folder.segments := by
  refine (confined_resolveBelow server folder.segments [] folder.named h).bind fun scope hscope => ?_
  exact (Operation.confined_report _ _).bind fun _ _ => Operation.confined_pure hscope

/-- The path of a folder in the folder. -/
theorem confined_append (hn : IsItemName name) (h : ItemPath.Under top folder.segments) :
    Operation.Confined top (Operation.ofExcept (folder.append name))
      fun deeper => ItemPath.Under top deeper.segments := by
  refine Operation.confined_ofExcept fun deeper hdeeper => ?_
  rw [FolderPath.append, dif_pos hn] at hdeeper
  cases hdeeper
  exact h.append [name]

section
variable (server : JobServer) (hn : IsItemName name) (h : ItemPath.Under top folder.segments)
include hn h

theorem confined_findJob : Operation.Confined top (server.findJob folder name)
    fun job => job = ⟨scopeOf folder.segments, name⟩ := by
  refine (confined_resolve server h).bind fun scope hscope => ?_
  subst hscope
  refine (confined_getJob folder.named hn (h.append [name])).bind fun found hfound => ?_
  cases found with
  | none => exact Operation.confined_throw _
  | some job => exact Operation.confined_pure (hfound job rfl)

/-! ## Builds -/

theorem confined_build : Operation.Confined top (server.build folder name) fun _ => True := by
  refine (confined_findJob server hn h).bind fun job hjob => ?_
  subst hjob
  exact (confined_triggerBuild folder.named hn (h.append [name])).bind fun _ _ => Operation.confined_report _ _

theorem confined_buildBranch {branch : String} (hb : IsItemName branch) :
    Operation.Confined top (server.buildBranch folder name branch) fun _ => True :=
  (confined_append hn h).bind fun _ hdeeper => confined_build server hb hdeeper

theorem confined_lastBuildResult : Operation.Confined top (server.lastBuildResult folder name) fun _ => True := by
  have hnamed := ItemPath.named_append.2 ⟨folder.named, ItemPath.named_singleton.2 hn⟩
  refine (confined_findJob server hn h).bind fun job hjob => ?_
  subst hjob
  refine (confined_listBuilds folder.named hn (h.append [name])).bind fun builds hbuilds => ?_
  cases hlatest : latestBuild? builds with
  | none => exact Operation.confined_throw _
  | some build =>
    obtain ⟨number, rfl⟩ := hbuilds build (mem_of_latestBuild? hlatest)
    exact confined_buildResult hnamed (h.append [name]) number

end

theorem confined_isMet (server : JobServer) {condition : BuildCondition} (hn : IsItemName condition.job)
    (h : ItemPath.Under top condition.folder.segments) : (server.isMet condition).Confined top fun _ => True := by
  refine Program.Confined.bind (confined_lastBuildResult server hn h) fun x _ => ?_
  cases x with
  | ok result => exact Program.confined_done trivial
  | error e => exact (Program.confined_report _).bind fun _ _ => Program.confined_done trivial

theorem confined_waitForBuildResult (server : JobServer) {poller : Poller} (hi : 0 < poller.interval)
    (condition : BuildCondition) (hn : IsItemName condition.job) (h : ItemPath.Under top condition.folder.segments)
    (timeout : Nat) : Operation.Confined top (server.waitForBuildResult poller condition timeout) fun _ => True := by
  refine Operation.Confined.poll hi _ timeout fun _ => ?_
  refine (confined_isMet server hn h).bind fun met _ => ?_
  cases met with
  | true => exact Program.confined_done trivial
  | false => exact Program.confined_done trivial

/-! ## Stopping builds -/

/-- A visit leads to items below the one visited. -/
theorem confined_visit (server : JobServer) (hn : IsItemName name) (h : ItemPath.Under top folder.segments) :
    Operation.Confined top (server.visit folder name)
      fun found => ∀ p ∈ found.2, ItemPath.Under top p.1.segments ∧ IsItemName p.2 := by
  have hnamed := ItemPath.named_append.2 ⟨folder.named, ItemPath.named_singleton.2 hn⟩
  refine (confined_findJob server hn h).bind fun job hjob => ?_
  subst hjob
  refine (confined_listBuilds folder.named hn (h.append [name])).bind fun builds hbuilds => ?_
  refine (confined_stopRunning hnamed (h.append [name]) _ builds hbuilds).bind fun here _ => ?_
  refine (confined_folderView folder.named hn (h.append [name])).bind fun found hfound => ?_
  cases found with
  | none => exact Operation.confined_pure fun p hp => absurd hp List.not_mem_nil
  | some view =>
    refine (confined_append hn h).bind fun deeper hdeeper => Operation.confined_pure fun p hp => ?_
    obtain ⟨child, hchild, rfl⟩ := List.mem_map.1 hp
    exact ⟨hdeeper, (hfound view rfl).2 child hchild⟩

theorem confined_abortPending (server : JobServer) : ∀ (fuel : Nat) (pending : List (FolderPath × String)),
    (∀ p ∈ pending, ItemPath.Under top p.1.segments ∧ IsItemName p.2) →
    Operation.Confined top (server.abortPending fuel pending) fun _ => True
  | fuel, [], _ => by
    rw [abortPending]
    exact Operation.confined_pure trivial
  | 0, _ :: _, _ => Operation.confined_throw _
  | fuel + 1, (folder, name) :: pending, hpending => by
    obtain ⟨hunder, hn⟩ := hpending (folder, name) List.mem_cons_self
    rw [abortPending_succ]
    refine (confined_visit server hn hunder).bind fun found hfound => ?_
    have hrest : ∀ p ∈ found.2 ++ pending, ItemPath.Under top p.1.segments ∧ IsItemName p.2 :=
      List.forall_mem_append.2 ⟨hfound, (List.forall_mem_cons.1 hpending).2⟩
    exact (confined_abortPending server fuel _ hrest).bind fun _ _ => Operation.confined_pure trivial

/-- After a visit there is one item fewer to visit. -/
theorem visit_shrinks (server : JobServer) (folder : FolderPath) {s : Server} (wf : s.tree.WellFormed)
    (hn : IsItemName name) :
    ∃ x s', s.Yields (server.visit folder name) x s' ∧ s'.tree.WellFormed ∧
      ∀ found, x = .ok found → (∀ p ∈ found.2, IsItemName p.2) ∧
        ∀ pending, (s.tree.toVisit ((folder, name) :: pending)).length =
          (s'.tree.toVisit (found.2 ++ pending)).length + 1 := by
  cases hc : s.tree.contains (folder.segments ++ [name]) with
  | false =>
    obtain ⟨kind, shown, hvisit⟩ := visit_absent server hn hc
    exact ⟨_, _, hvisit, wf, fun found hfound => by cases hfound⟩
  | true =>
    obtain ⟨node, hnode⟩ := Tree.contains_iff.1 hc
    cases hf : s.listingFailures.lookup (folder.segments ++ [name]) with
    | some status =>
      exact ⟨_, _, visit_hidden server wf hn hc hf, wf, fun found hfound => by cases hfound⟩
    | none =>
      let deeper : FolderPath := ⟨folder.segments ++ [name], wf.named _ hc⟩
      refine ⟨_, _, visit_listed server deeper wf hn rfl hnode hf, wf.insert_same hnode rfl, fun found hfound => ?_⟩
      cases hfound
      refine ⟨fun p hp => ?_, fun pending => ?_⟩
      · obtain ⟨child, hchild, rfl⟩ := List.mem_map.1 hp
        exact wf.named _ (Tree.mem_children.1 hchild) child (by simp)
      · have hsame := Tree.toVisit_congr (Tree.contains_insert_of_get? hnode (node.stopAmong node.listed))
        rw [Tree.toVisit_cons wf deeper pending rfl hc, List.length_cons]
        exact congrArg (fun visit : List ItemPath => visit.length + 1) (hsame _).symm

/-- **A bound that is large enough is no bound**: more than there are items to visit is enough. -/
theorem abortPending_enough (server : JobServer) : ∀ (fuel fuel' : Nat) (pending : List (FolderPath × String))
    (w : World), w.server.tree.WellFormed → (∀ p ∈ pending, IsItemName p.2) →
    (w.server.tree.toVisit pending).length < fuel → (w.server.tree.toVisit pending).length < fuel' →
    w.runOperation (server.abortPending fuel pending) = w.runOperation (server.abortPending fuel' pending)
  | fuel + 1, fuel' + 1, [], w, _, _, _, _ => by rw [abortPending, abortPending]
  | fuel + 1, fuel' + 1, (folder, name) :: pending, w, wf, hn, hfuel, hfuel' => by
    have hname : IsItemName name := hn (folder, name) List.mem_cons_self
    obtain ⟨x, s', hvisit, wf', hnext⟩ := visit_shrinks server folder wf hname
    obtain ⟨log, hlog⟩ := hvisit w rfl
    rw [abortPending_succ, abortPending_succ, World.runOperation_bind, World.runOperation_bind, hlog]
    cases x with
    | error e => rfl
    | ok found =>
      obtain ⟨hnames, hlength⟩ := hnext found rfl
      have hlength := hlength pending
      have hrest : ∀ p ∈ found.2 ++ pending, IsItemName p.2 :=
        List.forall_mem_append.2 ⟨hnames, (List.forall_mem_cons.1 hn).2⟩
      have ih := abortPending_enough server fuel fuel' (found.2 ++ pending) { w with server := s', log } wf' hrest
        (by dsimp only; omega) (by dsimp only; omega)
      dsimp only
      rw [World.runOperation_bind, World.runOperation_bind, ih]

theorem abortAllBuilds_enough (server : JobServer) (folder : FolderPath) (hn : IsItemName name) {w : World}
    (hw : w.Idle) {fuel : Nat} (hfuel : w.server.tree.size < fuel) :
    w.runOperation (server.abortAllBuilds folder name) = w.runOperation (server.abortPending fuel [(folder, name)]) := by
  have hvisit : w.server.tree.toVisit [(folder, name)] = w.server.tree.within (folder.segments ++ [name]) :=
    List.flatMap_singleton _ _
  have hlength := w.server.tree.length_within_le (folder.segments ++ [name])
  have hcensus : w.runOperation (server.abortAllBuilds folder name) =
      w.runOperation (server.abortPending (w.server.tree.size + 1) [(folder, name)]) :=
    World.runOperation_lift w (.census .done) _
  rw [hcensus]
  refine abortPending_enough server _ _ _ w hw.wellFormed (fun p hp => ?_) ?_ ?_
  · rw [List.mem_singleton.1 hp]
    exact hn
  · rw [hvisit]
    omega
  · rw [hvisit]
    omega

/-- **Stopping all builds below an item is confined**, though it asks how many items there are. -/
theorem confined_abortAllBuilds (server : JobServer) (hn : IsItemName name) (h : ItemPath.Under top folder.segments) :
    Operation.Confined top (server.abortAllBuilds folder name) fun _ => True := by
  refine Program.confined_of_runs fun w w' hw hw' => ?_
  refine ⟨(server.abortPending (max w.server.tree.size w'.server.tree.size + 1) [(folder, name)]).run, ?_,
    abortAllBuilds_enough server folder hn hw (by omega), abortAllBuilds_enough server folder hn hw' (by omega)⟩
  refine confined_abortPending server _ _ fun p hp => ?_
  rw [List.mem_singleton.1 hp]
  exact ⟨h, hn⟩

/-! ## Making and deleting items -/

theorem confined_definition (server : JobServer) (kind : TemplateKind) (params : TemplateParams) :
    Operation.Confined top (server.definition kind params) fun _ => True :=
  (Operation.confined_ofExcept fun _ _ => trivial).bind fun _ _ =>
    (Operation.confined_reportAll _).bind fun _ _ => Operation.confined_pure trivial

section
variable (ha : above.Named) (hn : IsItemName name) (h : ItemPath.Under top (above ++ [name]))
include ha hn h

theorem confined_deleteItem (kind : String) :
    Operation.Confined top (deleteItem kind (scopeOf above) name) fun _ => True := by
  refine (confined_deleteJob_request ha hn h).outcome.bind fun x _ => ?_
  cases x with
  | ok _ => exact Operation.confined_report _ _
  | error e =>
    dsimp only
    split
    · exact Operation.confined_report _ _
    · exact Operation.confined_throw e

theorem confined_createFolder (hb : server.baseUrl = Memory.baseUrl) :
    Operation.Confined top (server.createFolder (scopeOf above) name)
      fun made => made = handleOf (above ++ [name]) := by
  rw [createFolder, hb, scopeUrl_scopeOf]
  refine (confined_definition server .folder []).bind fun definition _ => ?_
  refine (confined_submitFolder ha hn h definition server.credentials).bind fun _ _ => ?_
  exact (Operation.confined_report _ _).bind fun _ _ => Operation.confined_pure (childFolder_of_url hb)

theorem confined_createJob (server : JobServer) (kind : TemplateKind) (params : TemplateParams) :
    Operation.Confined top (server.createJob kind (scopeOf above) name params) fun _ => True := by
  rw [createJob]
  by_cases hk : kind = .folder
  · rw [if_pos hk]
    exact Operation.confined_throw _
  · rw [if_neg hk]
    refine (confined_deleteItem ha hn h "job").bind fun _ _ => ?_
    refine (confined_definition server kind params).bind fun definition _ => ?_
    refine (confined_createJob_request ha hn h definition).bind fun _ _ => ?_
    refine (Operation.confined_report _ _).bind fun _ _ => ?_
    cases kind.triggersInitialBuild with
    | false => exact Operation.confined_pure trivial
    | true =>
      exact (confined_triggerBuild ha hn h).bind fun _ _ => (Operation.confined_report _ _).bind fun _ _ =>
        Operation.confined_pure trivial

end

theorem confined_createFoldersBelow (hb : server.baseUrl = Memory.baseUrl) : ∀ (names : List String)
    (above : ItemPath), above ≠ [] → ItemPath.Named (above ++ names) → above.Under top →
    Operation.Confined top (server.createFoldersBelow (handleOf above) names)
      fun made => made = handleOf (above ++ names)
  | [], above, _, _, _ => by
    rw [createFoldersBelow, List.append_nil]
    exact Operation.confined_pure rfl
  | name :: rest, above, hne, hnamed, h => by
    obtain ⟨ha, hr⟩ := ItemPath.named_append.1 hnamed
    have hn : IsItemName name := hr name List.mem_cons_self
    have hsplit : above ++ name :: rest = above ++ [name] ++ rest := List.append_cons _ _ _
    rw [createFoldersBelow, ← scopeOf_of_ne_nil hne, hsplit]
    refine (confined_createFolder ha hn (h.append [name]) hb).bind fun made hmade => ?_
    subst hmade
    exact confined_createFoldersBelow hb rest (above ++ [name]) (by simp) (hsplit ▸ hnamed) (h.append [name])

theorem confined_createFolderChain (hb : server.baseUrl = Memory.baseUrl) (h : ItemPath.Under top folder.segments)
    (deleteRoot : Bool) : Operation.Confined top (server.createFolderChain folder deleteRoot)
      fun made => some made = scopeOf folder.segments := by
  obtain ⟨rest, hsegments⟩ : ∃ rest, folder.segments = top :: rest := List.head?_eq_some_iff.1 h
  have hnamed : ItemPath.Named ([top] ++ rest) := by
    intro name hname
    exact folder.named name (hsegments ▸ hname)
  have htop : ItemPath.Named ([] ++ [top]) := (ItemPath.named_append.1 hnamed).1
  obtain ⟨hnil, hn⟩ := ItemPath.named_append.1 htop
  have hn : IsItemName top := ItemPath.named_singleton.1 hn
  have hchain : Operation.Confined top (do
      let first ← server.createFolder none top
      server.createFoldersBelow first rest) fun made => some made = scopeOf (top :: rest) := by
    refine (confined_createFolder hnil hn rfl hb).bind fun first hfirst => ?_
    subst hfirst
    refine (confined_createFoldersBelow hb rest [top] (by simp) hnamed rfl).imp fun made hmade => ?_
    rw [hmade, scopeOf_of_ne_nil (by simp)]
    rfl
  rw [createFolderChain, hsegments]
  cases deleteRoot with
  | false => exact hchain
  | true => exact (confined_deleteItem hnil hn rfl "folder").bind fun _ _ => hchain

end JobServer

end JobHierarchy
