import JobHierarchy.Proofs.Items
import JobHierarchy.Proofs.KeptBuilds
/-!
# What removes an item

An item goes with the item that a request deletes, if that lies at its path or above it, and in no other way
(`Server.perform_contains`). Which item that can be is settled by the call alone: every request to delete that an
operation makes is about one item, its `Action.target?`, and the first request of such a call is this one. So a row
of calls removes an item exactly if one of them is for an item at its path or above it that the server lets go
(`World.removed_iff`).

Three calls are meant for deleting folders, and refuse folders that lie in others. The calls for jobs delete whatever
has the name, so a folder in a folder is removed by them (`World.not_kept_by_folder_calls`).
-/

namespace JobHierarchy

open Memory

variable {α β : Type} {P : Request → Prop}

/-- The item that a request deletes if it is there. -/
def Request.deleted? : Request → Option ItemPath
  | .deleteJob scope name => some ((scopePath scope).item name)
  | _ => none

@[simp] theorem Request.deleted?_deleteJob (scope : Option FolderHandle) (name : String) :
    (Request.deleteJob scope name).deleted? = some ((scopePath scope).item name) := rfl

/-! ## One request -/

namespace Memory.Server

variable {s : Server} {r : Request} {path target : ItemPath}

/-- Every item on the way to a path is there, and the item itself. -/
def Stands (s : Server) (path : ItemPath) : Prop := ∀ q, q ≠ [] → q <+: path → s.tree.contains q = true

theorem changed_contains {s₀ : Server} {x : Except Error Tree} (h : s₀.tree.contains path = true)
    (hx : ∀ tree, x = .ok tree → tree.contains path = true) : (s₀.changed x).2.tree.contains path = true := by
  cases x with
  | ok tree => exact hx tree rfl
  | error e => exact h

theorem contains_insertItem {scope : ItemPath} {name : String} {node : Node} {tree : Tree}
    (h : s.tree.contains path = true) (hx : s.insertItem scope name node = .ok tree) : tree.contains path = true := by
  obtain ⟨-, -, rfl⟩ := insertItem_eq_ok hx
  rw [Tree.contains_insert, h, Bool.or_true]

/-- **An item stays**, whatever is requested, unless an item at its path or above it is deleted and the server lets it
go. -/
theorem perform_contains (h : s.tree.contains path = true)
    (hd : ∀ target, r.deleted? = some target → target <+: path → s.deleteFailures.lookup target ≠ none) :
    (s.perform r).2.tree.contains path = true := by
  cases r with
  | getJob scope name => exact h
  | folderView job => exact h
  | listBuilds job => exact h
  | buildResult build => exact h
  | createJob scope name definition => exact changed_contains h fun tree htree => contains_insertItem h htree
  | deleteJob scope name =>
    refine changed_contains h fun tree htree => ?_
    obtain ⟨-, rfl⟩ := deleteJob_eq_ok htree
    by_cases hpre : (scopePath scope).item name <+: path
    · obtain ⟨status, hstatus⟩ := Option.ne_none_iff_exists'.1 (hd _ rfl hpre)
      unfold deleteJob at htree
      simp only [show (s.record (callOf (.deleteJob scope name))).deleteFailures = s.deleteFailures from rfl,
        hstatus] at htree
      cases htree
    · rw [Tree.contains, Tree.get?_eraseBelow, if_neg hpre]
      exact h
  | triggerBuild job =>
    refine changed_contains h fun tree htree => ?_
    obtain ⟨node, hnode, -, rfl⟩ := triggerBuild_eq_ok htree
    rw [Tree.contains_insert_of_get? hnode]
    exact h
  | stopBuild build =>
    refine changed_contains h fun tree htree => ?_
    obtain rfl | ⟨node, hnode, -, rfl⟩ := stopBuild_eq_ok htree
    · exact h
    · rw [Tree.contains_insert_of_get? hnode]
      exact h
  | submitFolder folder name definition credentials =>
    unfold perform answer submitFolder
    simp only
    split
    · exact h
    · split
      · exact h
      · next tree htree => exact contains_insertItem h htree

/-- What the server is told to refuse to delete stays so. -/
theorem perform_deleteFailures (s : Server) (r : Request) : (s.perform r).2.deleteFailures = s.deleteFailures := by
  have hchanged : ∀ (s₀ : Server) (x : Except Error Tree), (s₀.changed x).2.deleteFailures = s₀.deleteFailures := by
    intro s₀ x
    cases x <;> rfl
  cases r with
  | submitFolder target name definition credentials =>
    unfold perform answer submitFolder
    simp only
    split
    · rfl
    · split <;> rfl
  | createJob scope name definition => exact hchanged _ _
  | deleteJob scope name => exact hchanged _ _
  | triggerBuild job => exact hchanged _ _
  | stopBuild build => exact hchanged _ _
  | _ => rfl

/-- What is deleted goes with all that is in it. -/
theorem perform_deleted (hr : r.deleted? = some target) (hf : s.deleteFailures.lookup target = none)
    (h : s.tree.contains target = true) (hpre : target <+: path) : (s.perform r).2.tree.contains path = false := by
  cases r with
  | deleteJob scope name =>
    cases hr
    obtain ⟨node, hnode⟩ := Tree.contains_iff.1 h
    have hgone := deleteJob_there (s := s.record (callOf (.deleteJob scope name))) hf hnode
    unfold perform answer
    simp only [hgone, changed]
    rw [Tree.contains, Tree.get?_eraseBelow, if_pos hpre]
    rfl
  | _ => cases hr

end Memory.Server

/-! ## What programs ask for -/

/-- All the requests of a program satisfy `P`, whatever is answered. -/
def Program.Asks (P : Request → Prop) : Program α → Prop
  | .done _ => True
  | .request r next => P r ∧ ∀ x, (next x).Asks P
  | .report _ next => next.Asks P
  | .sleep _ next => next.Asks P
  | .clock next => ∀ t, (next t).Asks P
  | .census next => ∀ n, (next n).Asks P

/-- The request that a program begins with, if that is what it begins with. -/
def Program.first? : Program α → Option Request
  | .request r _ => some r
  | _ => none

/-- The same of an operation. -/
abbrev Operation.Asks (P : Request → Prop) (t : Operation α) : Prop := Program.Asks P t.run

theorem Program.Asks.bind {p : Program α} {f : α → Program β} (h : p.Asks P) (hf : ∀ a, (f a).Asks P) :
    (p >>= f).Asks P := by
  induction p with
  | done a => exact hf a
  | request r next ih => exact ⟨h.1, fun x => ih x (h.2 x)⟩
  | report event next ih => exact ih h
  | sleep millis next ih => exact ih h
  | clock next ih => exact fun t => ih t (h t)
  | census next ih => exact fun n => ih n (h n)

namespace Operation

theorem asks_pure (a : α) : Asks P (pure a) := trivial

theorem asks_throw (e : Error) : Asks P (throw e : Operation α) := trivial

theorem asks_ofExcept (x : Except Error α) : Asks P (ofExcept x) := trivial

theorem asks_ask {r : Request} (h : P r) : Asks P (ask r) := ⟨h, fun _ => trivial⟩

theorem asks_report (level : LogLevel) (text : String) : Asks P (report level text) := trivial

theorem asks_census : Asks P census := fun _ => trivial

theorem Asks.bind {t : Operation α} {f : α → Operation β} (h : t.Asks P) (hf : ∀ a, (f a).Asks P) :
    (t >>= f).Asks P :=
  Program.Asks.bind h fun x => match x with
    | .ok a => hf a
    | .error _ => trivial

theorem asks_lift {p : Program α} (h : p.Asks P) : Asks P (ExceptT.lift p) :=
  Program.Asks.bind h fun _ => trivial

theorem Asks.outcome {t : Operation α} (h : t.Asks P) : Asks P (outcome t) := asks_lift h

/-- Carrying an operation out whether it succeeds or not makes the same requests. -/
theorem Asks.attempt {t : Operation α} (h : t.Asks P) : Program.Asks P t.attempt :=
  Program.Asks.bind h fun _ => trivial

theorem asks_reportAll : ∀ events : List LogEvent, Asks P (reportAll events)
  | [] => trivial
  | _ :: events => asks_reportAll events

end Operation

open Operation

namespace JobServer

section
variable (server : JobServer) (hP : ∀ r : Request, r.deleted? = none → P r)
include hP

/-! ### Operations that delete nothing -/

theorem asks_createFolder (scope : Option FolderHandle) (name : String) : (server.createFolder scope name).Asks P := by
  have hdefinition : (server.definition .folder []).Asks P :=
    (asks_ofExcept _).bind fun rendered => (asks_reportAll rendered.2).bind fun _ => asks_pure _
  refine hdefinition.bind fun definition => (asks_ask (hP _ rfl)).bind fun _ => ?_
  exact (asks_report _ _).bind fun _ => asks_pure _

theorem asks_createFoldersBelow : ∀ (names : List String) (last : FolderHandle),
    (server.createFoldersBelow last names).Asks P
  | [], last => asks_pure last
  | name :: rest, last =>
    (server.asks_createFolder hP (some last) name).bind fun next => asks_createFoldersBelow rest next

theorem asks_createAndFind (scope : Option FolderHandle) (name : String) :
    (server.createAndFind scope name).Asks P := by
  refine (server.asks_createFolder hP scope name).outcome.bind fun attempt => ?_
  refine (asks_ask (hP _ rfl)).bind fun found => ?_
  rcases found with _ | job <;> rcases attempt with e | handle
  · exact asks_throw e
  · exact asks_throw _
  · exact (asks_report _ _).bind fun _ => asks_pure job
  · exact asks_pure job

omit server in
theorem asks_folderView_bind {f : Option FolderView → Operation α} (job : JobRef)
    (hsome : ∀ view, (f (some view)).Asks P) (hnone : (f none).Asks P) : (ask (.folderView job) >>= f).Asks P := by
  refine (asks_ask (hP _ rfl)).bind fun view => ?_
  cases view with
  | some view => exact hsome view
  | none => exact hnone

theorem asks_resolveBelow (create : Bool) : ∀ (names above : List String) (scope : Option FolderHandle),
    (server.resolveBelow create above scope names).Asks P
  | [], _, scope => asks_pure scope
  | name :: rest, above, scope => by
    have hbelow (view : FolderView) := asks_resolveBelow create rest (above ++ [name]) (some view.handle)
    rw [resolveBelow]
    refine (asks_ask (hP _ rfl)).bind fun found => ?_
    cases found with
    | some job => exact (asks_pure job).bind fun job => asks_folderView_bind hP job hbelow (asks_throw _)
    | none =>
      cases create with
      | true =>
        refine (server.asks_createAndFind hP scope name).bind fun job => ?_
        exact asks_folderView_bind hP job hbelow (asks_throw _)
      | false => exact (asks_throw (α := JobRef) _).bind fun job => asks_folderView_bind hP job hbelow (asks_throw _)

theorem asks_resolve (path : FolderPath) (create : Bool) : (server.resolve path create).Asks P := by
  refine (server.asks_resolveBelow hP create path.segments [] none).bind fun handle => ?_
  exact (asks_report _ _).bind fun _ => asks_pure handle

theorem asks_findJob (folder : FolderPath) (name : String) : (server.findJob folder name).Asks P := by
  refine (server.asks_resolve hP folder false).bind fun scope => (asks_ask (hP _ rfl)).bind fun found => ?_
  cases found with
  | some job => exact asks_pure job
  | none => exact asks_throw _

theorem asks_build (folder : FolderPath) (name : String) : (server.build folder name).Asks P := by
  refine (server.asks_findJob hP folder name).bind fun job => (asks_ask (hP _ rfl)).bind fun _ => ?_
  exact asks_report _ _

omit server in
theorem asks_stopRunning (shown : String) : ∀ builds : List BuildHandle, (stopRunning shown builds).Asks P
  | [] => asks_pure 0
  | build :: rest => by
    have hrest := asks_stopRunning shown rest
    rw [stopRunning]
    refine (asks_ask (hP _ rfl)).bind fun result => ?_
    cases result with
    | some _ => exact hrest
    | none =>
      refine (asks_ask (hP _ rfl)).bind fun _ => (asks_report _ _).bind fun _ => ?_
      exact hrest.bind fun _ => asks_pure _

theorem asks_abortPending : ∀ (fuel : Nat) (pending : List (FolderPath × String)),
    (server.abortPending fuel pending).Asks P
  | 0, [] => asks_pure 0
  | 0, _ :: _ => asks_throw _
  | fuel + 1, [] => asks_pure 0
  | fuel + 1, (folder, name) :: pending => by
    have hrest (here : Nat) (inside : List (FolderPath × String)) :
        Operation.Asks P (server.abortPending fuel (inside ++ pending) >>= fun n => pure (here + n)) :=
      (asks_abortPending fuel _).bind fun _ => asks_pure _
    rw [abortPending]
    refine (server.asks_findJob hP folder name).bind fun job => (asks_ask (hP _ rfl)).bind fun builds => ?_
    refine (asks_stopRunning hP _ builds).bind fun here => (asks_ask (hP _ rfl)).bind fun view => ?_
    cases view with
    | none => exact (asks_pure _).bind (hrest here)
    | some view => exact (asks_ofExcept _).bind fun scope => (asks_pure _).bind (hrest here)

theorem asks_buildBranch (folder : FolderPath) (pipeline branch : String) :
    (server.buildBranch folder pipeline branch).Asks P :=
  (asks_ofExcept _).bind fun path => server.asks_build hP path branch

theorem asks_abortAllBuilds (folder : FolderPath) (name : String) : (server.abortAllBuilds folder name).Asks P :=
  asks_census.bind fun fuel => server.asks_abortPending hP fuel _

theorem asks_lastBuildResult (folder : FolderPath) (name : String) : (server.lastBuildResult folder name).Asks P := by
  refine (server.asks_findJob hP folder name).bind fun job => (asks_ask (hP _ rfl)).bind fun builds => ?_
  cases latestBuild? builds with
  | some build => exact asks_ask (hP _ rfl)
  | none => exact asks_throw _

theorem asks_isMet (condition : BuildCondition) : (server.isMet condition).Asks P := by
  refine Program.Asks.bind (server.asks_lastBuildResult hP _ _) fun result => ?_
  cases result with
  | ok result => trivial
  | error e => trivial

end

end JobServer

theorem Poller.asks_probesFrom (p : Poller) (condition : String) (timeout started : Nat)
    {probe : Nat → Program (Outcome α)} (h : ∀ k, (probe k).Asks P) : ∀ fuel number attempts, Operation.Asks P
      (p.probesFrom Program.waiting Poller.countOn condition timeout started probe fuel number attempts)
  | 0, _, _ => asks_throw _
  | fuel + 1, number, attempts => by
    rw [probesFrom]
    refine Asks.bind (asks_lift trivial) fun attempts => (asks_lift (h number)).bind fun outcome => ?_
    refine Asks.bind (asks_lift fun _ => trivial) fun now => ?_
    cases outcome.verdict (now - started) timeout with
    | goOn => exact Asks.bind (asks_lift trivial) fun _ => p.asks_probesFrom condition timeout started h fuel _ _
    | succeed value => exact Asks.bind (asks_lift trivial) fun _ => asks_pure value
    | giveUp => exact Asks.bind (asks_lift trivial) fun _ => asks_throw _
    | fail e => exact Asks.bind (asks_lift trivial) fun _ => asks_throw e

theorem Poller.asks_pollIn (p : Poller) (condition : String) (timeout : Nat) {probe : Nat → Program (Outcome α)}
    (h : ∀ k, (probe k).Asks P) : Operation.Asks P (p.pollIn Program.waiting condition timeout probe) :=
  Asks.bind (asks_lift fun _ => trivial) fun started => p.asks_probesFrom condition timeout started h _ _ _

/-! ### Operations that delete -/

namespace JobServer

theorem asks_deleteItem (kind : String) {scope : Option FolderHandle} {name : String} (h : P (.deleteJob scope name)) :
    (deleteItem kind scope name).Asks P := by
  refine (asks_ask h).outcome.bind fun x => ?_
  cases x with
  | ok _ => exact asks_report _ _
  | error e =>
    dsimp only
    split
    · exact asks_report _ _
    · exact asks_throw e

theorem asks_createJob (server : JobServer) (hP : ∀ r : Request, r.deleted? = none → P r) {kind : TemplateKind}
    {scope : Option FolderHandle} {name : String} (h : kind ≠ .folder → P (.deleteJob scope name))
    (params : TemplateParams) : (server.createJob kind scope name params).Asks P := by
  have hdefinition : (server.definition kind params).Asks P :=
    (asks_ofExcept _).bind fun rendered => (asks_reportAll rendered.2).bind fun _ => asks_pure _
  unfold createJob
  dsimp only
  split
  · trivial
  · next hk =>
    refine (asks_deleteItem "job" (h hk)).bind fun _ => hdefinition.bind fun definition => ?_
    refine (asks_ask (hP _ rfl)).bind fun _ => (asks_report _ _).bind fun _ => ?_
    split
    · exact (asks_ask (hP _ rfl)).bind fun _ => (asks_report _ _).bind fun _ => asks_pure _
    · exact asks_pure _

end JobServer

/-! ## Calls -/

namespace Action

/-- The name of the top-level folder that a call for deleting folders is about. -/
def root? : Action → Option String
  | .deleteFolder none name => some name
  | .deleteFolderPath path => if path.length = 1 then path.root? else none
  | .createFolderChain path true => path.root?
  | _ => none

/-- The item whose place a call about a job clears. -/
def cleared? : Action → Option ItemPath
  | .deleteJob scope name => some ((scopePath scope).item name)
  | .createJob kind scope name _ => if kind = .folder then none else some ((scopePath scope).item name)
  | _ => none

/-- The item that a call deletes if it is there. -/
def target? (action : Action) : Option ItemPath := (action.root?.map (ItemPath.item [])).or action.cleared?

/-- The call is for an item at a path or above it, which the server lets go. -/
def Removes (action : Action) (failures : Failures) (path : ItemPath) : Prop :=
  ∃ target, action.target? = some target ∧ target <+: path ∧ failures.lookup target = none

variable {connection : Connection} {action : Action} {target : ItemPath}

theorem target?_eq_some_iff : action.target? = some target ↔
    action.cleared? = some target ∨ ∃ name, action.root? = some name ∧ ItemPath.item [] name = target := by
  have hone : action.root? = none ∨ action.cleared? = none := by
    cases action with
    | deleteJob scope name => exact .inl rfl
    | createJob kind scope name params => exact .inl rfl
    | _ => exact .inr rfl
  rw [target?, Option.or_eq_some_iff, Option.map_eq_some_iff, Option.map_eq_none_iff]
  constructor
  · rintro (h | ⟨-, h⟩)
    · exact .inr h
    · exact .inl h
  · rintro (h | h)
    · exact .inr ⟨hone.resolve_right (by simp [h]), h⟩
    · exact .inl h

/-- **A call deletes nothing but its target.** -/
theorem asks_program (connection : Connection) (action : Action) :
    (action.program connection).Asks fun r => ∀ target, r.deleted? = some target → action.target? = some target := by
  have hP : ∀ r : Request, r.deleted? = none → ∀ target, r.deleted? = some target → action.target? = some target := by
    intro r hr target htarget
    rw [hr] at htarget
    cases htarget
  have hdelete : ∀ {scope : Option FolderHandle} {name : String}, action.target? = some ((scopePath scope).item name) →
      ∀ target, (Request.deleteJob scope name).deleted? = some target → action.target? = some target := by
    intro scope name h target htarget
    cases htarget
    exact h
  cases action with
  | resolve path create => exact (connection.server.asks_resolve hP path create).attempt
  | createFolder scope name => exact (connection.server.asks_createFolder hP scope name).attempt
  | createFolderChain path deleteRoot =>
    refine Asks.attempt ?_
    unfold JobServer.createFolderChain
    cases hpath : path.segments with
    | nil => trivial
    | cons root rest =>
      have hmake : ∀ first, (connection.server.createFoldersBelow first rest).Asks _ :=
        connection.server.asks_createFoldersBelow hP rest
      cases deleteRoot with
      | true =>
        refine Asks.bind (JobServer.asks_deleteItem "folder" (hdelete ?_)) fun _ =>
          (connection.server.asks_createFolder hP none root).bind hmake
        simp [target?, root?, FolderPath.root?, hpath, scopePath]
      | false => exact (connection.server.asks_createFolder hP none root).bind hmake
  | createJob kind scope name params =>
    refine (connection.server.asks_createJob hP (fun hk => hdelete ?_) params).attempt
    simp [target?, root?, cleared?, hk]
  | deleteJob scope name => exact (JobServer.asks_deleteItem "job" (hdelete rfl)).attempt
  | deleteFolder scope name =>
    cases scope with
    | some parent => trivial
    | none => exact (JobServer.asks_deleteItem "folder" (hdelete rfl)).attempt
  | deleteFolderPath path =>
    refine Asks.attempt ?_
    unfold JobServer.deleteFolderPath
    split
    · trivial
    · next root hpath =>
      refine JobServer.asks_deleteItem "folder" (hdelete ?_)
      simp [target?, root?, FolderPath.root?, FolderPath.length, hpath, scopePath]
    · trivial
  | build folder job => exact (connection.server.asks_build hP folder job).attempt
  | buildBranch folder pipeline branch => exact (connection.server.asks_buildBranch hP folder pipeline branch).attempt
  | abortAllBuilds folder job => exact (connection.server.asks_abortAllBuilds hP folder job).attempt
  | lastBuildResult folder job => exact (connection.server.asks_lastBuildResult hP folder job).attempt
  | waitForBuildResult condition timeout =>
    refine (connection.poller.asks_pollIn _ timeout fun _ => ?_).attempt
    refine Program.Asks.bind (connection.server.asks_isMet hP condition) fun met => ?_
    cases met <;> trivial
  | waitForFolder path create condition timeout =>
    refine (connection.poller.asks_pollIn _ timeout fun _ => ?_).attempt
    rw [map_eq_pure_bind]
    exact Program.Asks.bind (connection.server.asks_resolve hP path create) fun _ => trivial
  | waitForResult folder job condition timeout =>
    refine (connection.poller.asks_pollIn _ timeout fun _ => ?_).attempt
    rw [map_eq_pure_bind]
    exact Program.Asks.bind (connection.server.asks_lastBuildResult hP folder job) fun _ => trivial

/-- What a call deletes it asks for at once. -/
theorem first?_program (connection : Connection) (h : action.target? = some target) :
    (action.program connection).first?.bind Request.deleted? = some target := by
  cases action with
  | createFolderChain path deleteRoot =>
    cases deleteRoot with
    | false => cases h
    | true =>
      cases hpath : path.segments with
      | nil => simp [target?, root?, cleared?, FolderPath.root?, hpath] at h
      | cons root rest =>
        have hfirst : (connection.server.createFolderChain path true).attempt.first? = some (.deleteJob none root) := by
          rw [JobServer.createFolderChain, hpath]
          rfl
        rw [program, hfirst]
        simpa [target?, root?, FolderPath.root?, hpath, scopePath] using h
  | createJob kind scope name params =>
    by_cases hk : kind = .folder
    · simp [target?, root?, cleared?, hk] at h
    · have hfirst : (connection.server.createJob kind scope name params).attempt.first? =
          some (.deleteJob scope name) := by
        rw [JobServer.createJob, if_neg hk]
        rfl
      rw [program, hfirst]
      simpa [target?, root?, cleared?, hk] using h
  | deleteJob scope name => exact h
  | deleteFolder scope name =>
    cases scope with
    | some parent => cases h
    | none => exact h
  | deleteFolderPath path =>
    by_cases hlength : path.length = 1
    · obtain ⟨root, hpath⟩ := List.length_eq_one_iff.1 hlength
      have hfirst : (JobServer.deleteFolderPath path).attempt.first? = some (.deleteJob none root) := by
        rw [JobServer.deleteFolderPath, hpath]
        rfl
      rw [program, hfirst]
      simpa [target?, root?, FolderPath.root?, hlength, hpath, scopePath] using h
    · simp [target?, root?, cleared?, hlength] at h
  | _ => cases h

end Action

/-! ## Rows of calls -/

namespace Memory.World

variable {action : Action} {w : World} {path : ItemPath} {failures : Failures}

/-- Where nothing is planned, nothing happens while time passes. -/
theorem elapse_idle (hw : w.pending = []) (millis : Nat) :
    (w.elapse millis).server = w.server ∧ (w.elapse millis).pending = [] := by
  simp [elapse, dueBy, hw]

/-- What the requests of a program keep, a run of the program keeps. -/
theorem course_keeps {I : Server → Prop} (hI : ∀ s r, P r → I s → I (s.perform r).2) {p : Program α} (hp : p.Asks P)
    (hw : w.pending = []) (h : I w.server) :
    (∀ s ∈ w.course p, I s) ∧ (w.run p).2.pending = [] ∧ I (w.run p).2.server := by
  induction p generalizing w with
  | done a => exact ⟨fun s hs => List.mem_singleton.1 hs ▸ h, hw, h⟩
  | request r next ih =>
    have hrest := ih (w.server.perform r).1 (w := { w with server := (w.server.perform r).2 }) (hp.2 _) hw
      (hI _ r hp.1 h)
    exact ⟨List.forall_mem_cons.2 ⟨h, hrest.1⟩, hrest.2⟩
  | report event next ih => exact ih (w := { w with log := w.log.push event }) hp hw h
  | sleep millis next ih =>
    obtain ⟨hserver, hidle⟩ := elapse_idle hw millis
    have hrest := ih (w := w.elapse millis) hp hidle (hserver ▸ h)
    exact ⟨List.forall_mem_cons.2 ⟨h, hrest.1⟩, hrest.2⟩
  | clock next ih => exact ih w.now (hp _) hw h
  | census next ih => exact ih _ (hp _) hw h

/-- A call that is not for an item at a path or above it leaves everything on the way to the path there. -/
theorem action_keeps (connection : Connection) (hw : w.pending = []) (hf : w.server.deleteFailures = failures)
    (h : w.server.Stands path) (hr : ¬ action.Removes failures path) :
    (∀ s ∈ w.course (action.program connection), s.deleteFailures = failures ∧ s.Stands path) ∧
      (w.run (action.program connection)).2.pending = [] ∧
      (w.run (action.program connection)).2.server.deleteFailures = failures ∧
      (w.run (action.program connection)).2.server.Stands path := by
  refine course_keeps (I := fun s => s.deleteFailures = failures ∧ s.Stands path) ?_ (action.asks_program connection)
    hw ⟨hf, h⟩
  rintro s r hown ⟨hfailures, hstands⟩
  refine ⟨(s.perform_deleteFailures r).trans hfailures, fun q hq hpre => ?_⟩
  refine Server.perform_contains (hstands q hq hpre) fun target htarget hbelow hnone => hr ?_
  exact ⟨target, hown target htarget, hbelow.trans hpre, hfailures ▸ hnone⟩

theorem item_ne_nil (scope : ItemPath) (name : String) : scope.item name ≠ [] := by
  simp [ItemPath.item, ItemPath.ofString, Text.parts, Text.splitAt_ne_nil]

/-- A call that is for such an item removes it at once, and what is in it too. -/
theorem action_removes (connection : Connection) (hf : w.server.deleteFailures = failures)
    (h : w.server.Stands path) (hr : action.Removes failures path) :
    ∃ s ∈ w.course (action.program connection), s.tree.contains path = false := by
  obtain ⟨target, htarget, hpre, hnone⟩ := hr
  obtain ⟨r, hfirst, hdeleted⟩ := Option.bind_eq_some_iff.1 (Action.first?_program connection htarget)
  have hne : target ≠ [] := by
    cases r with
    | deleteJob scope name =>
      cases hdeleted
      exact item_ne_nil _ _
    | _ => cases hdeleted
  cases hprogram : action.program connection with
  | request r' next =>
    rw [hprogram] at hfirst
    cases hfirst
    refine ⟨(w.server.perform r).2, List.mem_cons_of_mem _ (server_mem_course _ _), ?_⟩
    exact Server.perform_deleted hdeleted (hf ▸ hnone) (h target hne hpre) hpre
  | _ =>
    rw [hprogram] at hfirst
    cases hfirst

theorem removed_iff_of_stands (connection : Connection) (hne : path ≠ []) : ∀ (actions : List Action) (w : World),
    w.pending = [] → w.server.deleteFailures = failures → w.server.Stands path →
    ((∃ s ∈ w.courseAlong connection (actions.map .action), s.tree.contains path = false) ↔
      ∃ action ∈ actions, action.Removes failures path)
  | [], w, _, _, h => by simp [courseAlong, h path hne (List.prefix_refl path)]
  | action :: actions, w, hw, hf, h => by
    have hpath : ∀ {s : Server}, s.Stands path → s.tree.contains path = true := fun h =>
      h path hne (List.prefix_refl path)
    rw [List.map_cons, courseAlong]
    by_cases hr : action.Removes failures path
    · obtain ⟨s, hs, hgone⟩ := action_removes connection hf h hr
      exact iff_of_true ⟨s, List.mem_append_left _ hs, hgone⟩ ⟨action, List.mem_cons_self, hr⟩
    · obtain ⟨hcourse, hw', hf', h'⟩ := action_keeps connection hw hf h hr
      have ih := removed_iff_of_stands connection hne actions (w.after connection (.action action)) hw' hf' h'
      constructor
      · rintro ⟨s, hs, hgone⟩
        rcases List.mem_append.1 hs with hs | hs
        · rw [hpath (hcourse s hs).2] at hgone
          cases hgone
        · obtain ⟨other, hother, hremoves⟩ := ih.1 ⟨s, hs, hgone⟩
          exact ⟨other, List.mem_cons_of_mem _ hother, hremoves⟩
      · rintro ⟨other, hother, hremoves⟩
        rcases List.mem_cons.1 hother with rfl | hother
        · exact absurd hremoves hr
        · obtain ⟨s, hs, hgone⟩ := ih.2 ⟨other, hother, hremoves⟩
          exact ⟨s, List.mem_append_right _ hs, hgone⟩

/-- **What removes an item**, be it a folder, a job, or a job with branches: the calls that are for an item at its path
or above it, so long as the server is not told to refuse that; and nothing else. Calls for deleting folders are about
items at the top level, those about jobs about any item. -/
theorem removed_iff (connection : Connection) (actions : List Action) (hw : w.pending = [])
    (wf : w.server.tree.WellFormed) (hthere : w.server.tree.contains path = true) :
    (∃ s ∈ w.courseAlong connection (actions.map .action), s.tree.contains path = false) ↔
      ∃ action ∈ actions, ∃ target, target <+: path ∧ w.server.deleteFailures.lookup target = none ∧
        (action.cleared? = some target ∨ ∃ name, action.root? = some name ∧ ItemPath.item [] name = target) := by
  have hstands : w.server.Stands path := fun q hq hpre => wf.contains_of_prefix hq hpre hthere
  rw [removed_iff_of_stands connection (wf.ne_nil path hthere) actions w hw rfl hstands]
  constructor
  · rintro ⟨action, hmem, target, htarget, hpre, hnone⟩
    exact ⟨action, hmem, target, hpre, hnone, Action.target?_eq_some_iff.1 htarget⟩
  · rintro ⟨action, hmem, target, hpre, hnone, htarget⟩
    exact ⟨action, hmem, target, Action.target?_eq_some_iff.2 htarget, hpre, hnone⟩

/-- A folder in a folder, with a job in it. -/
def nested : World :=
  .ofServer { Server.empty with
    tree := ((Tree.empty.insert ["teamA"] (.ofKind .folder)).insert ["teamA", "projectX"] (.ofKind .folder)).insert
      ["teamA", "projectX", "build"] (.ofKind .job) }

/-- The folder is first to be deleted as one, which is refused, and then a job of its name is created. -/
def refusedThenReplaced : List Action := [
  .deleteFolder (some (handleOf ["teamA"])) "projectX",
  .createJob .pipeline (some (handleOf ["teamA"])) "projectX" []]

theorem removed_iff_nested :
    nested.pending = [] ∧ nested.server.tree.WellFormed ∧
      nested.server.tree.contains ["teamA", "projectX", "build"] = true ∧
      ∃ s ∈ nested.courseAlong (.ofServer (.ofUrl Memory.baseUrl) .default) (refusedThenReplaced.map .action),
        s.tree.contains ["teamA", "projectX", "build"] = false := by
  have hw : nested.pending = [] := rfl
  have wf : nested.server.tree.WellFormed := by decide
  have hthere : nested.server.tree.contains ["teamA", "projectX", "build"] = true := by decide
  refine ⟨hw, wf, hthere, (removed_iff _ refusedThenReplaced hw wf hthere).2 ?_⟩
  exact ⟨_, List.mem_cons_of_mem _ List.mem_cons_self, ["teamA", "projectX"], by decide, rfl, .inl (by decide +kernel)⟩

/-- **Folders in folders are not safe** from calls that are for no folder: one is gone after a job of its name has been
deleted. -/
theorem not_kept_by_folder_calls :
    ¬ ∀ (connection : Connection) (w : World) (actions : List Action) (root : String) (below : ItemPath) (node : Node),
      w.pending = [] → w.server.tree.WellFormed → below ≠ [] →
      w.server.tree.get? (root :: below) = some node → node.kind = .folder →
      (∀ action ∈ actions, action.root? ≠ some root) →
      (w.follow connection (actions.map .action)).server.tree.contains (root :: below) = true := by
  intro h
  have hkept := h (.ofServer (.ofUrl Memory.baseUrl) .default) nested
    [.deleteJob (some (handleOf ["teamA"])) "projectX"] "teamA" ["projectX"] (.ofKind .folder) rfl (by decide)
    (by decide) (by decide) rfl (by decide)
  have hgone : (nested.follow (.ofServer (.ofUrl Memory.baseUrl) .default)
      [.action (.deleteJob (some (handleOf ["teamA"])) "projectX")]).server.tree.contains ["teamA", "projectX"] =
        false := by decide +kernel
  rw [List.map_cons, List.map_nil, hgone] at hkept
  cases hkept

end Memory.World

end JobHierarchy
