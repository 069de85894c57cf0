import JobHierarchy.Proofs.Accounts
/-!
# What can run out of time

What a request answers is never a timeout, and neither is what an operation refuses on its own account. So an
operation that does not poll fails with something else (`Operation.Untimed`), by one rule for each way to build
it. A wait is the other way round: whatever goes wrong at a look means that the condition does not hold yet, so
all that a wait can fail with is that its time is up (`JobServer.waitForBuildResult_timed`).

So the stage that a scenario stopped at decides how it counts: as timed out if it is a wait, and as failed if it
is any other stage (`Scenario.runAll_tellsWaits`).
-/

namespace JobHierarchy

open Memory

variable {α β : Type} {P Q : Error → Prop}

/-! ## Errors of one kind -/

/-- If `x` is an error, it is one with `P`. -/
def ErrorsIn (P : Error → Prop) (x : Except Error α) : Prop := ∀ e, x = .error e → P e

theorem errorsIn_ok (a : α) : ErrorsIn P (.ok a) := by
  intro e he
  cases he

theorem errorsIn_error {e : Error} (h : P e) : ErrorsIn P (.error e : Except Error α) := by
  intro e' he'
  cases he'
  exact h

theorem ErrorsIn.bind {x : Except Error α} {f : α → Except Error β} (hx : ErrorsIn P x)
    (hf : ∀ a, ErrorsIn P (f a)) : ErrorsIn P (x >>= f) := by
  cases x with
  | ok a => exact hf a
  | error e => exact errorsIn_error (hx e rfl)

/-- An error that is no timeout. -/
abbrev Error.Untimed (e : Error) : Prop := e.isTimeout = false

/-! ## Requests -/

namespace Memory.Server

variable (s : Server) (path : ItemPath)

theorem node_untimed : ErrorsIn Error.Untimed (s.node path) := by
  unfold Server.node
  split
  · exact errorsIn_ok _
  · exact errorsIn_error rfl

theorem checkScope_untimed : ErrorsIn Error.Untimed (s.checkScope path) := by
  unfold checkScope
  split
  · exact errorsIn_ok _
  · split
    · split
      · exact errorsIn_error rfl
      · exact errorsIn_ok _
    · exact errorsIn_error rfl

theorem insertItem_untimed (name : String) (node : Node) : ErrorsIn Error.Untimed (s.insertItem path name node) := by
  refine (s.checkScope_untimed path).bind fun _ => ?_
  dsimp only
  split
  · exact errorsIn_error rfl
  · exact errorsIn_ok _

theorem folderView_untimed : ErrorsIn Error.Untimed (s.folderView path) := by
  refine (s.node_untimed path).bind fun node => ?_
  split <;> exact errorsIn_ok _

theorem deleteJob_untimed : ErrorsIn Error.Untimed (s.deleteJob path) := by
  unfold deleteJob
  split
  · exact errorsIn_error rfl
  · exact (s.node_untimed path).bind fun _ => errorsIn_ok _

theorem triggerBuild_untimed : ErrorsIn Error.Untimed (s.triggerBuild path) := by
  refine (s.node_untimed path).bind fun node => ?_
  split
  · exact errorsIn_error rfl
  · exact errorsIn_ok _

theorem listBuilds_untimed : ErrorsIn Error.Untimed (s.listBuilds path) := by
  unfold listBuilds
  split
  · exact errorsIn_error rfl
  · exact (s.node_untimed path).bind fun _ => errorsIn_ok _

theorem result_untimed (number : Nat) : ErrorsIn Error.Untimed (s.result path number) := by
  refine (s.node_untimed path).bind fun node => ?_
  dsimp only
  split
  · exact errorsIn_error rfl
  · split
    · exact errorsIn_ok _
    · exact errorsIn_error rfl

theorem stopBuild_untimed (number : Nat) : ErrorsIn Error.Untimed (s.stopBuild path number) := by
  refine (s.result_untimed path number).bind fun result => ?_
  cases result with
  | some result => exact errorsIn_ok _
  | none =>
    refine (s.node_untimed path).bind fun node => ?_
    split
    · exact errorsIn_ok _
    · exact errorsIn_error rfl

theorem submitFolder_untimed (name : String) : ErrorsIn Error.Untimed (s.submitFolder path name).1 := by
  unfold submitFolder
  dsimp only
  split
  · exact errorsIn_error rfl
  · split
    · next e he => exact errorsIn_error (insertItem_untimed _ path name _ e he)
    · split
      · exact errorsIn_error rfl
      · exact errorsIn_ok _

theorem changed_untimed {x : Except Error Tree} (h : ErrorsIn Error.Untimed x) :
    ErrorsIn Error.Untimed (s.changed x).1 := by
  cases x with
  | ok tree => exact errorsIn_ok _
  | error e => exact errorsIn_error (h e rfl)

/-- **No request is answered with a timeout.** -/
theorem perform_untimed (r : Request) : ErrorsIn Error.Untimed (s.perform r).1 := by
  cases r with
  | getJob scope name => exact errorsIn_ok _
  | folderView job => exact folderView_untimed _ _
  | createJob scope name definition => exact changed_untimed _ (insertItem_untimed _ _ _ _)
  | deleteJob scope name => exact changed_untimed _ (deleteJob_untimed _ _)
  | triggerBuild job => exact changed_untimed _ (triggerBuild_untimed _ _)
  | listBuilds job => exact listBuilds_untimed _ _
  | buildResult build => exact result_untimed _ _ _
  | stopBuild build => exact changed_untimed _ (stopBuild_untimed _ _ _)
  | submitFolder target name definition credentials => exact submitFolder_untimed _ _ _

end Memory.Server

/-! ## Rules for operations -/

namespace Operation

/-- All that `t` fails with, in whatever world, is errors with `P`. -/
def FailsOnly (P : Error → Prop) (t : Operation α) : Prop := ∀ w : World, ErrorsIn P (w.runOperation t).1

/-- `t` does not run out of time. -/
abbrev Untimed (t : Operation α) : Prop := t.FailsOnly Error.Untimed

theorem failsOnly_pure (a : α) : (pure a : Operation α).FailsOnly P := fun _ => errorsIn_ok a

theorem failsOnly_throw {e : Error} (h : P e) : (throw e : Operation α).FailsOnly P := fun _ => errorsIn_error h

theorem failsOnly_ofExcept {x : Except Error α} (h : ErrorsIn P x) : (ofExcept x).FailsOnly P := fun _ => h

theorem untimed_ask (r : Request) : (ask r).Untimed := fun w => w.server.perform_untimed r

theorem FailsOnly.bind {t : Operation α} {f : α → Operation β} (h : t.FailsOnly P) (hf : ∀ a, (f a).FailsOnly P) :
    (t >>= f).FailsOnly P := by
  intro w
  have ht := h w
  rw [World.runOperation_bind]
  rcases hrun : w.runOperation t with ⟨x, w'⟩
  rw [hrun] at ht
  cases x with
  | ok a => exact hf a w'
  | error e => exact errorsIn_error (ht e rfl)

theorem failsOnly_throw_bind {e : Error} (h : P e) (f : α → Operation β) : (throw e >>= f).FailsOnly P :=
  fun _ => errorsIn_error h

theorem failsOnly_lift_bind (p : Program α) {f : α → Operation β} (hf : ∀ a, (f a).FailsOnly P) :
    FailsOnly P (ExceptT.lift p >>= f : Operation β) := by
  intro w
  rw [World.runOperation_lift]
  exact hf _ _

theorem failsOnly_lift (p : Program α) : FailsOnly P (ExceptT.lift p : Operation α) := by
  have h := failsOnly_lift_bind (P := P) p (f := fun a => pure a) failsOnly_pure
  rwa [bind_pure] at h

/-- An outcome that is looked at is of the same kind as if it were not. -/
theorem FailsOnly.outcome_bind {t : Operation α} {f : Except Error α → Operation β} (h : t.FailsOnly P)
    (hf : ∀ x, ErrorsIn P x → (f x).FailsOnly Q) : (outcome t >>= f).FailsOnly Q := by
  intro w
  unfold outcome
  rw [World.runOperation_lift]
  exact hf _ (h w) _

theorem failsOnly_report (level : LogLevel) (text : String) : (report level text).FailsOnly P := failsOnly_lift _

theorem failsOnly_reportAll (events : List LogEvent) : (reportAll events).FailsOnly P := by
  induction events with
  | nil => exact failsOnly_pure ()
  | cons event rest ih => exact failsOnly_lift_bind _ fun _ => ih

theorem failsOnly_forM {f : α → Operation Unit} (hf : ∀ a, (f a).FailsOnly P) (items : List α) :
    (items.forM f).FailsOnly P := by
  induction items with
  | nil => exact failsOnly_pure ()
  | cons a rest ih => exact (hf a).bind fun _ => ih

end Operation

open Operation

/-! ## Operations that do not poll -/

theorem TemplateSource.render_untimed (source : TemplateSource) (kind : TemplateKind) (params : TemplateParams) :
    ErrorsIn Error.Untimed (source.render kind params) := by
  have htemplate : ErrorsIn Error.Untimed (source.template kind) := by
    unfold TemplateSource.template
    split
    · exact errorsIn_ok _
    · split
      · exact errorsIn_ok _
      · exact errorsIn_ok _
      · exact errorsIn_error rfl
  unfold TemplateSource.render
  cases h : source.template kind with
  | ok found => exact errorsIn_ok _
  | error e => exact errorsIn_error (htemplate e h)

theorem FolderPath.append_untimed (path : FolderPath) (name : String) :
    ErrorsIn Error.Untimed (path.append name) := by
  unfold FolderPath.append
  split
  · exact errorsIn_ok _
  · unfold nameFault
    split <;> exact errorsIn_error rfl

namespace JobServer

variable (server : JobServer)

theorem untimed_definition (kind : TemplateKind) (params : TemplateParams) :
    (server.definition kind params).Untimed := by
  refine (failsOnly_ofExcept (server.templates.render_untimed kind params)).bind fun found => ?_
  exact (failsOnly_reportAll found.2).bind fun _ => failsOnly_pure _

/-! ### Folders -/

theorem untimed_createFolder (scope : Option FolderHandle) (name : String) :
    (server.createFolder scope name).Untimed := by
  refine (server.untimed_definition .folder []).bind fun definition => ?_
  refine (untimed_ask _).bind fun _ => ?_
  exact (failsOnly_report _ _).bind fun _ => failsOnly_pure _

theorem untimed_createAndFind (scope : Option FolderHandle) (name : String) :
    (server.createAndFind scope name).Untimed := by
  refine (server.untimed_createFolder scope name).outcome_bind fun attempt hattempt => ?_
  refine (untimed_ask _).bind fun found => ?_
  rcases found with _ | job <;> rcases attempt with e | handle
  · exact failsOnly_throw (hattempt e rfl)
  · exact failsOnly_throw rfl
  · exact (failsOnly_report _ _).bind fun _ => failsOnly_pure _
  · exact failsOnly_pure _

theorem untimed_folderView_bind {f : Option FolderView → Operation α} (job : JobRef)
    (hsome : ∀ view, (f (some view)).Untimed) (hnone : (f none).Untimed) :
    (Operation.ask (.folderView job) >>= f).Untimed := by
  refine (untimed_ask _).bind fun view => ?_
  cases view with
  | some view => exact hsome view
  | none => exact hnone

theorem untimed_resolveBelow (create : Bool) : ∀ (rest above : List String) (scope : Option FolderHandle),
    (server.resolveBelow create above scope rest).Untimed
  | [], above, scope => failsOnly_pure scope
  | segment :: rest, above, scope => by
    rw [resolveBelow]
    have hbelow (view : FolderView) := untimed_resolveBelow create rest (above ++ [segment]) (some view.handle)
    refine (untimed_ask _).bind fun found => ?_
    cases found with
    | some job =>
      refine (failsOnly_pure job).bind fun job => ?_
      exact untimed_folderView_bind job hbelow (failsOnly_throw rfl)
    | none =>
      cases create with
      | true =>
        refine (server.untimed_createAndFind scope segment).bind fun job => ?_
        exact untimed_folderView_bind job hbelow (failsOnly_throw rfl)
      | false =>
        refine failsOnly_throw_bind ?_ _
        rfl

theorem untimed_resolve (path : FolderPath) (create : Bool) : (server.resolve path create).Untimed := by
  refine (server.untimed_resolveBelow create path.segments [] none).bind fun handle => ?_
  exact (failsOnly_report _ _).bind fun _ => failsOnly_pure _

theorem untimed_createFoldersBelow : ∀ (names : List String) (above : FolderHandle),
    (server.createFoldersBelow above names).Untimed
  | [], above => failsOnly_pure above
  | name :: rest, _ => (server.untimed_createFolder _ name).bind (untimed_createFoldersBelow rest)

/-! ### Items -/

theorem untimed_deleteItem (kind : String) (scope : Option FolderHandle) (name : String) :
    (deleteItem kind scope name).Untimed := by
  refine (untimed_ask _).outcome_bind fun x hx => ?_
  cases x with
  | ok _ => exact failsOnly_report _ _
  | error e =>
    dsimp only
    split
    · exact failsOnly_report _ _
    · exact failsOnly_throw (hx e rfl)

theorem untimed_createFolderChain (path : FolderPath) (deleteRoot : Bool) :
    (server.createFolderChain path deleteRoot).Untimed := by
  unfold createFolderChain
  split
  · exact failsOnly_throw rfl
  · next root rest _ =>
    have hmake : (server.createFolder none root >>= fun first => server.createFoldersBelow first rest).Untimed :=
      (server.untimed_createFolder none root).bind (server.untimed_createFoldersBelow rest)
    split
    · exact (untimed_deleteItem "folder" none root).bind fun _ => hmake
    · exact hmake

theorem untimed_createJob (kind : TemplateKind) (scope : Option FolderHandle) (name : String)
    (params : TemplateParams) : (server.createJob kind scope name params).Untimed := by
  unfold createJob
  dsimp only
  split
  · refine failsOnly_throw_bind ?_ _
    rfl
  · refine (untimed_deleteItem "job" scope name).bind fun _ => ?_
    refine (server.untimed_definition kind params).bind fun definition => ?_
    refine (untimed_ask _).bind fun _ => (failsOnly_report _ _).bind fun _ => ?_
    split
    · exact (untimed_ask _).bind fun _ => (failsOnly_report _ _).bind fun _ => failsOnly_pure _
    · exact failsOnly_pure _

/-! ### Builds -/

theorem untimed_findJob (folder : FolderPath) (name : String) : (server.findJob folder name).Untimed := by
  refine (server.untimed_resolve folder false).bind fun scope => ?_
  refine (untimed_ask _).bind fun found => ?_
  cases found with
  | some job => exact failsOnly_pure job
  | none => exact failsOnly_throw rfl

theorem untimed_build (folder : FolderPath) (name : String) : (server.build folder name).Untimed := by
  refine (server.untimed_findJob folder name).bind fun job => ?_
  exact (untimed_ask _).bind fun _ => failsOnly_report _ _

theorem untimed_buildBranch (folder : FolderPath) (pipeline branch : String) :
    (server.buildBranch folder pipeline branch).Untimed :=
  (failsOnly_ofExcept (folder.append_untimed pipeline)).bind fun path => server.untimed_build path branch

theorem untimed_stopRunning (shown : String) : ∀ builds : List BuildHandle, (stopRunning shown builds).Untimed
  | [] => failsOnly_pure 0
  | build :: rest => by
    have hrest := untimed_stopRunning shown rest
    rw [stopRunning]
    refine (untimed_ask _).bind fun result => ?_
    cases result with
    | some _ => exact hrest
    | none =>
      refine (untimed_ask _).bind fun _ => (failsOnly_report _ _).bind fun _ => ?_
      exact hrest.bind fun _ => failsOnly_pure _

theorem untimed_abortPending : ∀ (fuel : Nat) (pending : List (FolderPath × String)),
    (server.abortPending fuel pending).Untimed
  | 0, [] => failsOnly_pure 0
  | 0, _ :: _ => failsOnly_throw rfl
  | fuel + 1, [] => failsOnly_pure 0
  | fuel + 1, (folder, name) :: pending => by
    have hrest (here : Nat) (inside : List (FolderPath × String)) :
        (server.abortPending fuel (inside ++ pending) >>= fun n => pure (here + n)).Untimed :=
      (untimed_abortPending fuel _).bind fun _ => failsOnly_pure _
    rw [abortPending]
    refine (server.untimed_findJob folder name).bind fun job => (untimed_ask _).bind fun builds => ?_
    refine (untimed_stopRunning _ builds).bind fun here => untimed_folderView_bind job (fun view => ?_) ?_
    · refine (failsOnly_ofExcept (folder.append_untimed name)).bind fun path => ?_
      exact (failsOnly_pure _).bind (hrest here)
    · exact (failsOnly_pure _).bind (hrest here)

theorem untimed_abortAllBuilds (folder : FolderPath) (name : String) :
    (server.abortAllBuilds folder name).Untimed :=
  failsOnly_lift_bind _ fun fuel => server.untimed_abortPending fuel _

end JobServer

/-! ## Waits -/

/-- A poll whose probes do not fail can only run out of time. -/
theorem Poller.probesFrom_timed (p : Poller) (condition : String) (timeout started : Nat)
    {probe : Nat → Program (Outcome α)} (hprobe : ∀ (v : World) k e, (v.run (probe k)).1 ≠ .failed e) :
    ∀ fuel number attempts, Operation.FailsOnly (fun e => e.isTimeout = true)
      (p.probesFrom Program.waiting Poller.countOn condition timeout started probe fuel number attempts)
  | 0, _, _ => failsOnly_throw rfl
  | fuel + 1, number, attempts => by
    intro w
    rw [World.runOperation_probesFrom]
    cases hfound : (w.run (probe number)).1 with
    | ready value => exact failsOnly_lift_bind _ (fun _ => failsOnly_pure value) _
    | failed e => exact absurd hfound (hprobe w number e)
    | notYet =>
      rw [Outcome.verdict]
      split
      · refine failsOnly_lift_bind _ (fun _ => failsOnly_throw ?_) _
        rfl
      · exact failsOnly_lift_bind _ (fun _ => probesFrom_timed p condition timeout started hprobe fuel _ _) _

/-- **All that a wait can fail with is that its time is up**, whatever goes wrong at the looks. -/
theorem JobServer.waitForBuildResult_timed (server : JobServer) (poller : Poller) (condition : BuildCondition)
    (timeout : Nat) : (server.waitForBuildResult poller condition timeout).FailsOnly fun e => e.isTimeout = true := by
  refine failsOnly_lift_bind _ fun started => ?_
  refine poller.probesFrom_timed _ timeout started (fun v k e => ?_) _ _ _
  have hlook := run_look server condition v
  show (v.run (server.look condition)).1 ≠ .failed e
  rw [hlook]
  dsimp only
  split <;> exact nofun

namespace Scenario

variable {connection : Connection} {spec : Spec} {w : World}

/-! ## Stages -/

/-- Whether a stage waits for something. -/
def Stage.waits : Stage → Bool
  | .step (.waitResult ..) => true
  | _ => false

theorem untimed_applyTarget (server : JobServer) (spec : Spec) : (applyTarget server spec).Untimed := by
  refine (server.untimed_createFolderChain spec.folder spec.deleteExistingRoot).bind fun folder => ?_
  refine FailsOnly.bind (failsOnly_forM (fun job => ?_) spec.jobs) fun _ => failsOnly_pure _
  exact (server.untimed_createJob job.kind (some folder) job.name job.params).bind fun _ => failsOnly_pure _

/-- **A wait fails only by running out of time, and all other stages only by something else.** -/
theorem Stage.operation_failsOnly (connection : Connection) (spec : Spec) (stage : Stage) :
    (stage.operation connection spec).FailsOnly fun e => e.isTimeout = stage.waits := by
  cases stage with
  | setup => exact untimed_applyTarget connection.server spec
  | step step =>
    cases step with
    | build job => exact (connection.server.untimed_build spec.folder job).bind fun _ => failsOnly_pure none
    | buildBranch pipeline branch =>
      exact (connection.server.untimed_buildBranch spec.folder pipeline branch).bind fun _ => failsOnly_pure none
    | waitResult job desired timeout =>
      exact (connection.server.waitForBuildResult_timed connection.poller ⟨spec.folder, job, desired⟩ timeout).bind
        fun _ => failsOnly_pure none
    | abortAll job =>
      exact (connection.server.untimed_abortAllBuilds spec.folder job).bind fun _ => failsOnly_pure _
    | deleteJob job =>
      refine (connection.server.untimed_resolve spec.folder false).bind fun scope => ?_
      exact (JobServer.untimed_deleteItem "job" scope job).bind fun _ => failsOnly_pure none

theorem Stage.entry_status (connection : Connection) (spec : Spec) (w : World) (stage : Stage) :
    (stage.entry connection spec w).status = .passed ∨
      (stage.entry connection spec w).status = if stage.waits then .timedOut else .failed := by
  have hfails := stage.operation_failsOnly connection spec w
  unfold Stage.entry Stage.outcome
  cases hx : (w.runOperation (stage.operation connection spec)).1 with
  | ok detail => exact .inl rfl
  | error e =>
    right
    rw [← hfails e hx]
    rfl

/-! ## Where scenarios stop -/

/-- The stage that a scenario stopped at, by its result: that of the first entry that did not pass. -/
def Spec.stop? (spec : Spec) (r : Result) : Option Stage :=
  (r.steps.findIdx? fun e => !e.success).bind fun i => spec.stages[i]?

/-- The result of a scenario tells a wait that took too long from all else that can stop the scenario. -/
structure TellsWaits (spec : Spec) (r : Result) : Prop where
  entries : ∀ (i : Nat) e, r.steps[i]? = some e → ∃ stage, spec.stages[i]? = some stage ∧ e.step = stage.label ∧
    (e.status = .passed ∨ e.status = if stage.waits then .timedOut else .failed)
  timedOut_eq : (!r.success && r.timedOut) = (spec.stop? r).any fun stage => stage.waits
  failed_eq : (!r.success && !r.timedOut) = (spec.stop? r).any fun stage => !stage.waits

section
variable {n : Nat} {r : Result} {left : Server}

/-- Either the scenario passed, or it timed out if the stage that it stopped at is a wait. -/
theorem Recounts.stop?_eq (h : Recounts connection spec w n r left) :
    (spec.stop? r = none ∧ r.success = true) ∨
      ∃ stage, spec.stop? r = some stage ∧ r.success = false ∧ r.timedOut = stage.waits := by
  cases hfind : r.steps.findIdx? fun e => !e.success with
  | none =>
    left
    rw [Spec.stop?, hfind]
    refine ⟨rfl, h.success_iff.2 fun e he => StepResult.success_iff.1 ?_⟩
    have hpassed := List.findIdx?_eq_none_iff.1 hfind e he
    simpa using hpassed
  | some i =>
    right
    obtain ⟨hi, hfailed, -⟩ := List.findIdx?_eq_some_iff_getElem.1 hfind
    have hmem : r.steps[i] ∈ r.steps := List.getElem_mem hi
    have hnot : r.steps[i].status ≠ .passed := by
      intro hpassed
      rw [StepResult.success_iff.2 hpassed] at hfailed
      cases hfailed
    obtain ⟨stage, hstage, htold⟩ := h.told i r.steps[i] (List.getElem?_eq_getElem hi)
    have hstatus := stage.entry_status connection spec (spec.performed connection w (spec.stages.take i))
    rw [← htold] at hstatus
    have hstatus := hstatus.resolve_left hnot
    refine ⟨stage, ?_, ?_, ?_⟩
    · rw [Spec.stop?, hfind]
      exact hstage
    · rw [← Bool.not_eq_true]
      intro hsuccess
      exact hnot (h.success_iff.1 hsuccess _ hmem)
    · rw [Bool.eq_iff_iff, h.timedOut_iff, getLast?_of_not_passed h.passed_before hmem hnot]
      cases hwaits : stage.waits with
      | true => simpa [hwaits] using hstatus
      | false => simp [hstatus, hwaits]

theorem Recounts.tellsWaits (h : Recounts connection spec w n r left) : TellsWaits spec r := by
  have hentries : ∀ (i : Nat) e, r.steps[i]? = some e → ∃ stage, spec.stages[i]? = some stage ∧
      e.step = stage.label ∧ (e.status = .passed ∨ e.status = if stage.waits then .timedOut else .failed) := by
    intro i e he
    obtain ⟨stage, hstage, rfl⟩ := h.told i e he
    exact ⟨stage, hstage, StepResult.step_ofOutcome .., stage.entry_status connection spec _⟩
  obtain ⟨hnone, hsuccess⟩ | ⟨stage, hsome, hfailed, htimed⟩ := h.stop?_eq
  · refine ⟨hentries, ?_, ?_⟩
    · rw [hnone, hsuccess]
      rfl
    · rw [hnone, hsuccess]
      rfl
  · refine ⟨hentries, ?_, ?_⟩
    · rw [hsome, hfailed, htimed]
      rfl
    · rw [hsome, hfailed, htimed]
      rfl

end

theorem runScenario_tellsWaits (connection : Connection) (spec : Spec) (w : World) :
    TellsWaits spec (w.run (runScenario connection spec)).1 := by
  obtain ⟨n, hn⟩ := runScenario_recounts connection spec w
  exact hn.tellsWaits

/-- Two ways to count the same, pair by pair. -/
theorem countP_zip {p : β → Bool} {q : α × β → Bool} {as : List α} {bs : List β}
    (hlength : bs.length = as.length)
    (h : ∀ (i : Nat) a b, as[i]? = some a → bs[i]? = some b → p b = q (a, b)) : bs.countP p = (as.zip bs).countP q := by
  have hbs : (as.zip bs).map Prod.snd = bs := List.map_snd_zip (Nat.le_of_eq hlength)
  rw [← hbs, List.countP_map, hbs]
  refine List.countP_congr fun ⟨a, b⟩ hab => ?_
  obtain ⟨i, hi⟩ := List.mem_iff_getElem?.1 hab
  obtain ⟨ha, hb⟩ := List.getElem?_zip_eq_some.1 hi
  rw [← h i a b ha hb]
  rfl

/-- **Scenarios count by the stage that they stopped at**: as timed out those that stopped at a wait, and as
failed those that stopped at any other stage. -/
theorem runAll_tellsWaits (connection : Connection) (w : World) :
    (∀ spec, TellsWaits spec (w.run (runScenario connection spec)).1) ∧
      ∀ specs, ∃ tally left, w.run (runAll connection specs) = (tally, left) ∧
        tally.results.length = specs.length ∧
        (∀ (i : Nat) spec r, specs[i]? = some spec → tally.results[i]? = some r → TellsWaits spec r) ∧
        tally.timedOut = (specs.zip tally.results).countP (fun (spec, r) => (spec.stop? r).any (·.waits)) ∧
        tally.failed = (specs.zip tally.results).countP fun (spec, r) => (spec.stop? r).any (!·.waits) := by
  refine ⟨fun spec => runScenario_tellsWaits connection spec w, fun specs => ?_⟩
  obtain ⟨millis, results, left, hrun, -, hlength, htold⟩ := run_runAll_results connection specs w
  have htells : ∀ (i : Nat) spec r, specs[i]? = some spec → results[i]? = some r → TellsWaits spec r := by
    intro i spec r hspec hr
    cases (htold i spec hspec).symm.trans hr
    exact runScenario_tellsWaits connection spec _
  refine ⟨_, left, hrun, hlength, htells, ?_, ?_⟩
  · exact countP_zip hlength fun i spec r hspec hr => (htells i spec r hspec hr).timedOut_eq
  · exact countP_zip hlength fun i spec r hspec hr => (htells i spec r hspec hr).failed_eq

/-- One of these scenarios stops at its wait and counts as timed out, the other stops at its setup and counts as
failed. -/
theorem runAll_tellsWaits_crowded : ∃ tally left, crowded.run (runAll brief [waiting, raced]) = (tally, left) ∧
    ([waiting, raced].zip tally.results).map (fun (spec, r) => spec.stop? r) =
      [some (.step (.waitResult "50 %" .success 300)), some .setup] ∧
    tally.timedOut = 1 ∧ tally.failed = 1 := by
  obtain ⟨tally, left, hrun, -, -, htimed, hfailed⟩ := (runAll_tellsWaits brief crowded).2 [waiting, raced]
  have hstops : ([waiting, raced].zip (crowded.run (runAll brief [waiting, raced])).1.results).map
      (fun (spec, r) => spec.stop? r) = [some (.step (.waitResult "50 %" .success 300)), some .setup] := by
    decide +kernel
  rw [hrun] at hstops
  have hcount (q : Stage → Bool) : ([waiting, raced].zip tally.results).countP
      (fun (spec, r) => (spec.stop? r).any q) =
        [some (.step (.waitResult "50 %" .success 300)), some .setup].countP (·.any q) := by
    rw [← hstops, List.countP_map]
    rfl
  exact ⟨tally, left, hrun, hstops, htimed.trans (hcount _), hfailed.trans (hcount _)⟩

end Scenario

end JobHierarchy
