import JobHierarchy.Connection
import JobHierarchy.Proofs.Histories
/-!
# The builds of an item that stays

A request that leaves an item in place leaves its kind and its definition, adds builds only behind those that are
there, and changes no build but one that runs, which it stops (`Memory.Node.Continues`,
`Memory.Server.Alters.continues`). So whatever is done with a server, in whatever order and with whatever success,
the builds of an item that is not removed on the way are never rewritten (`Memory.World.follow_keeps_builds`).
-/

namespace JobHierarchy

variable {α : Type}

namespace Memory

/-! ## One item -/

/-- What an item can become without being removed. Builds are told apart by their places in the list. -/
structure Node.Continues (node later : Node) : Prop where
  kind_eq : later.kind = node.kind
  definition_eq : later.definition = node.definition
  length_le : node.builds.length ≤ later.builds.length
  /-- A result stays for ever. -/
  finished : ∀ (i : Nat) result, node.builds[i]? = some (some result) → later.builds[i]? = some (some result)
  /-- A running build goes on or is aborted. -/
  running : ∀ i : Nat, node.builds[i]? = some none →
    later.builds[i]? = some none ∨ later.builds[i]? = some (some .aborted)

namespace Node

variable {node later : Node}

theorem Continues.refl (node : Node) : node.Continues node :=
  ⟨rfl, rfl, Nat.le_refl _, fun _ _ h => h, fun _ h => .inl h⟩

theorem Continues.trans {last : Node} (h : node.Continues later) (h' : later.Continues last) :
    node.Continues last := by
  refine ⟨h'.kind_eq.trans h.kind_eq, h'.definition_eq.trans h.definition_eq, h.length_le.trans h'.length_le, ?_, ?_⟩
  · intro i result hi
    exact h'.finished i result (h.finished i result hi)
  · intro i hi
    rcases h.running i hi with hrun | haborted
    · exact h'.running i hrun
    · exact .inr (h'.finished i .aborted haborted)

theorem continues_built (node : Node) (result : Option BuildResult) :
    node.Continues { node with builds := node.builds ++ [result] } := by
  have hkept : ∀ (i : Nat) latest, node.builds[i]? = some latest → (node.builds ++ [result])[i]? = some latest := by
    intro i latest hi
    rw [List.getElem?_append_left (List.getElem?_eq_some_iff.1 hi).1]
    exact hi
  refine ⟨rfl, rfl, by simp, ?_, ?_⟩
  · intro i latest hi
    exact hkept i (some latest) hi
  · intro i hi
    exact .inl (hkept i none hi)

theorem continues_stopAmong (node : Node) (numbers : List Nat) : node.Continues (node.stopAmong numbers) := by
  refine ⟨rfl, rfl, by simp [stopAmong], ?_, ?_⟩
  · intro i result hi
    simp [getElem?_stopAmong, hi]
  · intro i hi
    rw [getElem?_stopAmong, hi, Option.map_some]
    split
    · exact .inr rfl
    · exact .inl rfl

end Node

namespace Server

variable {s : Server} {r : Request} {tree : Tree} {path : ItemPath} {node : Node}

/-- The item at `path` is there and continues `node`. -/
def Keeps (s : Server) (path : ItemPath) (node : Node) : Prop :=
  ∃ later, s.tree.get? path = some later ∧ node.Continues later

theorem Keeps.of_tree {s' : Server} (h : s.Keeps path node) (hs : s'.tree = s.tree) : s'.Keeps path node := by
  unfold Keeps
  rw [hs]
  exact h

/-! ## One request -/

/-- An item that a request leaves in place continues what it was. -/
theorem Alters.continues (h : s.Alters r tree) (hnode : s.tree.get? path = some node)
    (hkept : tree.contains path = true) : ∃ later, tree.get? path = some later ∧ node.Continues later := by
  cases h with
  | kept => exact ⟨node, hnode, .refl node⟩
  | added new hname hpath hscope hnew =>
    have hne : path ≠ (callOf r).path := by
      rintro rfl
      rw [← hpath, Tree.contains_eq_false_iff, hnode] at hnew
      cases hnew
    exact ⟨node, (s.tree.get?_insert_ne new hne).trans hnode, .refl node⟩
  | erased h =>
    obtain ⟨later, hlater⟩ := Tree.contains_iff.1 hkept
    refine ⟨later, hlater, ?_⟩
    rw [Tree.get?_eraseBelow] at hlater
    split at hlater
    · cases hlater
    · cases hnode.symm.trans hlater
      exact .refl node
  | @built other h hk =>
    by_cases hp : path = (callOf r).path
    · subst hp
      cases hnode.symm.trans h
      exact ⟨_, Tree.get?_insert_self .., node.continues_built s.triggeredResult⟩
    · exact ⟨node, (s.tree.get?_insert_ne _ hp).trans hnode, .refl node⟩
  | @stopped other number h hr =>
    by_cases hp : path = (callOf r).path
    · subst hp
      cases hnode.symm.trans h
      exact ⟨_, Tree.get?_insert_self .., node.continues_stopAmong [number]⟩
    · exact ⟨node, (s.tree.get?_insert_ne _ hp).trans hnode, .refl node⟩

theorem Keeps.perform (h : s.Keeps path node) (r : Request) (hkept : (s.perform r).2.tree.contains path = true) :
    (s.perform r).2.Keeps path node := by
  obtain ⟨later, hlater, hcontinues⟩ := h
  obtain ⟨last, hlast, hcontinues'⟩ := (s.perform_alters r).continues hlater hkept
  exact ⟨last, hlast, hcontinues.trans hcontinues'⟩

theorem Keeps.after (h : s.Keeps path node) (e : Event) (hkept : (s.after e).tree.contains path = true) :
    (s.after e).Keeps path node := by
  cases e with
  | request r => exact h.perform r hkept
  | failDelete text status => exact h
  | failFolder text status => exact h
  | failListBuilds text status => exact h
  | clearFailures => exact h
  | raceFolder text => exact h
  | setTriggeredResult result => exact h

end Server

/-! ## One program -/

namespace World

variable {w : World} {path : ItemPath} {node : Node}

/-- The servers that a program meets: the one it starts on, and the one after each request and each pause. -/
def course (w : World) : Program α → List Server
  | .done _ => [w.server]
  | .request r next =>
    w.server :: course { w with server := (w.server.perform r).2 } (next (w.server.perform r).1)
  | .report event next => course { w with log := w.log.push event } next
  | .sleep millis next => w.server :: course (w.elapse millis) next
  | .clock next => course w (next w.now)
  | .census next => course w (next (w.server.tree.size + 1))

/-- What is planned touches no item: it only changes what the server is told to do. -/
def Harmless (w : World) : Prop := ∀ c ∈ w.pending, ∀ s, (c.apply s).tree = s.tree

theorem tree_foldl_apply : ∀ (due : List Change) (s : Server), (∀ c ∈ due, ∀ s, (c.apply s).tree = s.tree) →
    (due.foldl (fun s c => c.apply s) s).tree = s.tree
  | [], _, _ => rfl
  | c :: due, s, h => by
    obtain ⟨hfirst, hrest⟩ := List.forall_mem_cons.1 h
    rw [List.foldl_cons, tree_foldl_apply due _ hrest, hfirst]

theorem Harmless.elapse (h : w.Harmless) (millis : Nat) :
    (w.elapse millis).Harmless ∧ (w.elapse millis).server.tree = w.server.tree := by
  constructor
  · intro c hc
    exact h c (List.mem_of_mem_filter hc)
  · refine tree_foldl_apply _ w.server fun c hc => h c ?_
    rw [dueBy, List.mem_mergeSort] at hc
    exact List.mem_of_mem_filter hc

theorem server_mem_course (w : World) (p : Program α) : w.server ∈ w.course p := by
  induction p generalizing w with
  | done value => exact List.mem_singleton_self _
  | request r next ih => exact List.mem_cons_self
  | report event next ih => exact ih { w with log := w.log.push event }
  | sleep millis next ih => exact List.mem_cons_self
  | clock next ih => exact ih w.now w
  | census next ih => exact ih _ w

/-- **A program never rewrites the builds of an item that is there all along.** -/
theorem run_keeps {p : Program α} (hw : w.Harmless) (h : w.server.Keeps path node)
    (hkept : ∀ s ∈ w.course p, s.tree.contains path = true) :
    (w.run p).2.Harmless ∧ (w.run p).2.server.Keeps path node := by
  induction p generalizing w with
  | done value => exact ⟨hw, h⟩
  | request r next ih =>
    have hrest := (List.forall_mem_cons.1 hkept).2
    have hnext := h.perform r (hrest _ (server_mem_course { w with server := (w.server.perform r).2 } _))
    exact ih (w.server.perform r).1 (w := { w with server := (w.server.perform r).2 }) hw hnext hrest
  | report event next ih => exact ih (w := { w with log := w.log.push event }) hw h hkept
  | sleep millis next ih =>
    obtain ⟨hw', htree⟩ := hw.elapse millis
    exact ih hw' (h.of_tree htree) (List.forall_mem_cons.1 hkept).2
  | clock next ih => exact ih w.now hw h hkept
  | census next ih => exact ih _ hw h hkept

end World

end Memory

/-! ## Whatever is done with a server -/

/-- The operations on a server, with what they are given. -/
inductive Action where
  | resolve (path : FolderPath) (create : Bool)
  | createFolder (scope : Option FolderHandle) (name : String)
  | createFolderChain (path : FolderPath) (deleteRoot : Bool)
  | createJob (kind : TemplateKind) (scope : Option FolderHandle) (name : String) (params : TemplateParams)
  | deleteJob (scope : Option FolderHandle) (name : String)
  | deleteFolder (scope : Option FolderHandle) (name : String)
  | deleteFolderPath (path : FolderPath)
  | build (folder : FolderPath) (job : String)
  | buildBranch (folder : FolderPath) (pipeline branch : String)
  | abortAllBuilds (folder : FolderPath) (job : String)
  | lastBuildResult (folder : FolderPath) (job : String)
  | waitForBuildResult (condition : JobServer.BuildCondition) (timeout : Nat)
  /-- Wait for a folder, looking for it or asking for it every time. -/
  | waitForFolder (path : FolderPath) (create : Bool) (condition : String) (timeout : Nat)
  /-- Wait for any result of the latest build. -/
  | waitForResult (folder : FolderPath) (job : String) (condition : String) (timeout : Nat)
  deriving DecidableEq, Repr

/-- An operation that is carried out whether it succeeds or not. -/
def Operation.attempt (t : Operation α) : Program Unit := t.run >>= fun _ => .done ()

/-- Carries out an operation; nobody looks at what it comes to. -/
def Action.program (connection : Connection) : Action → Program Unit
  | .resolve path create => (connection.server.resolve path create).attempt
  | .createFolder scope name => (connection.server.createFolder scope name).attempt
  | .createFolderChain path deleteRoot => (connection.server.createFolderChain path deleteRoot).attempt
  | .createJob kind scope name params => (connection.server.createJob kind scope name params).attempt
  | .deleteJob scope name => (JobServer.deleteJob scope name).attempt
  | .deleteFolder scope name => (JobServer.deleteFolder scope name).attempt
  | .deleteFolderPath path => (JobServer.deleteFolderPath path).attempt
  | .build folder job => (connection.server.build folder job).attempt
  | .buildBranch folder pipeline branch => (connection.server.buildBranch folder pipeline branch).attempt
  | .abortAllBuilds folder job => (connection.server.abortAllBuilds folder job).attempt
  | .lastBuildResult folder job => (connection.server.lastBuildResult folder job).attempt
  | .waitForBuildResult condition timeout =>
    (connection.server.waitForBuildResult connection.poller condition timeout).attempt
  | .waitForFolder path create condition timeout =>
    (connection.poller.poll condition timeout fun _ =>
      .ofLookup <$> (connection.server.resolve path create).run).attempt
  | .waitForResult folder job condition timeout =>
    (connection.poller.poll condition timeout fun _ =>
      .ofLookup <$> (connection.server.lastBuildResult folder job).run).attempt

/-- An operation, or something that happens to the server between operations. -/
inductive Happening where
  | action (action : Action)
  | event (event : Memory.Event)
  deriving DecidableEq, Repr

namespace Memory.World

variable {w : World} {path : ItemPath} {node : Node}

/-- The world after a happening. -/
def after (connection : Connection) (w : World) : Happening → World
  | .action action => (w.run (action.program connection)).2
  | .event event => { w with server := w.server.after event }

/-- The world after happenings, one after the other. -/
def follow (connection : Connection) (w : World) (happenings : List Happening) : World :=
  happenings.foldl (after connection) w

/-- The servers that are met in the course of a happening. -/
def courseOf (connection : Connection) (w : World) : Happening → List Server
  | .action action => w.course (action.program connection)
  | .event event => [w.server, w.server.after event]

/-- The servers that are met in the course of happenings, one after the other: what is removed and made again has
been missing in between. -/
def courseAlong (connection : Connection) (w : World) : List Happening → List Server
  | [] => [w.server]
  | h :: rest => w.courseOf connection h ++ (w.after connection h).courseAlong connection rest

theorem after_keeps {connection : Connection} (hw : w.Harmless) (h : w.server.Keeps path node)
    {happening : Happening} (hkept : ∀ s ∈ w.courseOf connection happening, s.tree.contains path = true) :
    (w.after connection happening).Harmless ∧ (w.after connection happening).server.Keeps path node := by
  cases happening with
  | action action => exact run_keeps hw h hkept
  | event event => exact ⟨hw, h.after event (hkept _ (by simp [courseOf]))⟩

/-- What one happening keeps, any number of them keep. -/
theorem follow_keeps (connection : Connection) : ∀ (happenings : List Happening) (w : World), w.Harmless →
    w.server.Keeps path node → (∀ s ∈ w.courseAlong connection happenings, s.tree.contains path = true) →
    (w.follow connection happenings).server.Keeps path node
  | [], _, _, h, _ => h
  | happening :: rest, w, hw, h, hkept => by
    obtain ⟨hhere, hrest⟩ := List.forall_mem_append.1 hkept
    obtain ⟨hw', h'⟩ := after_keeps hw h hhere
    exact follow_keeps connection rest (w.after connection happening) hw' h' hrest

/-- **The builds of an item are never rewritten.** Whatever operations are carried out, with whatever arguments and
success, and whatever the server is told to do in between or meanwhile: an item that is there all along has the
kind and the definition that it had and at least as many builds, each build that had a result has it still, and
each build that ran runs or is aborted. -/
theorem follow_keeps_builds (connection : Connection) (happenings : List Happening) (hw : w.Harmless)
    (hnode : w.server.tree.get? path = some node)
    (hkept : ∀ s ∈ w.courseAlong connection happenings, s.tree.contains path = true) :
    ∃ later, (w.follow connection happenings).server.tree.get? path = some later ∧ node.Continues later :=
  follow_keeps connection happenings w hw ⟨node, hnode, .refl node⟩ hkept

/-- A pipeline with a build that runs and a branch, beside a job; somebody is about to make a folder. -/
def nightly : World :=
  { World.ofServer { Server.empty with
      tree := ((Tree.empty.insert ["app"] ⟨.container, some "x", [some .success, none]⟩).insert ["app", "50 %"]
        ⟨.job, none, [none]⟩).insert ["old"] ⟨.job, none, [some .failure]⟩ } with
    pending := [⟨300, fun s => s.raceFolder "ci"⟩] }

/-- Builds are stopped until one cannot be listed; a job goes; then a build is added and waited for in vain. -/
def night : List Happening := [
  .event (.failListBuilds "app/50 %" 500),
  .action (.abortAllBuilds .topLevel "app"),
  .action (.deleteJob none "old"),
  .action (.build .topLevel "app"),
  .event .clearFailures,
  .action (.waitForBuildResult ⟨.topLevel, "app", .success⟩ 300)]

theorem follow_keeps_builds_night :
    nightly.Harmless ∧
      nightly.server.tree.get? ["app"] = some ⟨.container, some "x", [some .success, none]⟩ ∧
      (∀ s ∈ nightly.courseAlong (.ofServer (.ofUrl Memory.baseUrl) ⟨400⟩) night,
        s.tree.contains ["app"] = true) ∧
      ∃ later, (nightly.follow (.ofServer (.ofUrl Memory.baseUrl) ⟨400⟩) night).server.tree.get? ["app"] =
          some later ∧
        Node.Continues ⟨.container, some "x", [some .success, none]⟩ later ∧
        later.builds = [some .success, some .aborted, none] := by
  have hw : nightly.Harmless := by
    intro c hc s
    cases List.mem_singleton.1 hc
    rfl
  have hnode : nightly.server.tree.get? ["app"] = some ⟨.container, some "x", [some .success, none]⟩ := by decide
  have hkept : ∀ s ∈ nightly.courseAlong (.ofServer (.ofUrl Memory.baseUrl) ⟨400⟩) night,
      s.tree.contains ["app"] = true := by decide +kernel
  have hbuilds : ((nightly.follow (.ofServer (.ofUrl Memory.baseUrl) ⟨400⟩) night).server.tree.get?
      ["app"]).map (·.builds) = some [some .success, some .aborted, none] := by decide +kernel
  obtain ⟨later, hlater, hcontinues⟩ := follow_keeps_builds _ night hw hnode hkept
  rw [hlater, Option.map_some] at hbuilds
  exact ⟨hw, hnode, hkept, later, hlater, hcontinues, Option.some.inj hbuilds⟩

end Memory.World

end JobHierarchy
