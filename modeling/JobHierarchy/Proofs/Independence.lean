import JobHierarchy.Proofs.ConfinedOperations
import JobHierarchy.Proofs.Target
/-!
# Scenarios do not influence each other

A scenario works at or below one top-level folder. It is confined to that part of the server
(`Scenario.confined_runScenario`), so in a suite of scenarios with different top-level folders each comes to
what it would come to alone, whatever ran before it (`Scenario.runEach_alone`). The order of the scenarios
then only orders their results (`Scenario.runAll_perm`).
-/

namespace JobHierarchy.Scenario

open Memory JobServer

/-- The names that a step gives to items. -/
def Step.itemNames : Step → List String
  | .build job => [job]
  | .buildBranch pipeline branch => [pipeline, branch]
  | .waitResult job _ _ => [job]
  | .abortAll job => [job]
  | .deleteJob job => [job]

/-- The names that a scenario gives to items in its folder. -/
def Spec.itemNames (spec : Spec) : List String := spec.jobs.map (·.name) ++ spec.steps.flatMap Step.itemNames

/-- A scenario that has been validated and whose items have names that items can have. -/
structure Spec.Proper (spec : Spec) : Prop where
  valid : spec.validate = .ok ()
  named : ∀ name ∈ spec.itemNames, IsItemName name

variable {connection : Connection} {server : JobServer} {top : String} {spec : Spec}

/-! ## A scenario is confined -/

theorem confined_timed (label : String) {operation : Operation (Option String)}
    (h : Operation.Confined top operation fun _ => True) :
    (timed label operation).Confined top fun _ => True :=
  Program.Confined.timed h
    (fun (outcome : Except JobHierarchy.Error _) millis => StepResult.ofOutcome label millis (outcome.mapError .api))
    fun _ _ _ => trivial

theorem confined_createJobs (h : ItemPath.Under top spec.folder.segments) {folder : FolderHandle}
    (hfolder : some folder = scopeOf spec.folder.segments) : ∀ jobs : List JobSpec, (∀ job ∈ jobs, IsItemName job.name) →
    Operation.Confined top (jobs.forM fun job => do
      let _ ← server.createJob job.kind (some folder) job.name job.params) fun _ => True
  | [], _ => Operation.confined_pure trivial
  | job :: jobs, hn => by
    obtain ⟨hname, hnames⟩ := List.forall_mem_cons.1 hn
    have hjob := confined_createJob spec.folder.named hname (h.append [job.name]) server job.kind job.params
    rw [← hfolder] at hjob
    exact (hjob.bind fun _ _ => Operation.confined_pure (P := fun _ => True) trivial).bind fun _ _ =>
      confined_createJobs h hfolder jobs hnames

theorem confined_applyTarget (hb : server.baseUrl = Memory.baseUrl) (h : ItemPath.Under top spec.folder.segments)
    (hn : ∀ job ∈ spec.jobs, IsItemName job.name) :
    Operation.Confined top (applyTarget server spec) fun _ => True := by
  refine (confined_createFolderChain hb h spec.deleteExistingRoot).bind fun folder hfolder => ?_
  exact (confined_createJobs h hfolder spec.jobs hn).bind fun _ _ => Operation.confined_pure trivial

theorem confined_execute (hi : 0 < connection.poller.interval) {folder : FolderPath}
    (h : ItemPath.Under top folder.segments) {step : Step} (hn : ∀ name ∈ step.itemNames, IsItemName name) :
    Operation.Confined top (execute connection folder step) fun _ => True := by
  cases step with
  | build job =>
    have hjob : IsItemName job := hn job List.mem_cons_self
    exact (confined_build connection.server hjob h).bind fun _ _ => Operation.confined_pure trivial
  | buildBranch pipeline branch =>
    have hpipeline : IsItemName pipeline := hn pipeline List.mem_cons_self
    have hbranch : IsItemName branch := hn branch (List.mem_cons_of_mem _ List.mem_cons_self)
    exact (confined_buildBranch connection.server hpipeline h hbranch).bind fun _ _ => Operation.confined_pure trivial
  | waitResult job desired timeout =>
    have hjob : IsItemName job := hn job List.mem_cons_self
    exact (confined_waitForBuildResult connection.server hi ⟨folder, job, desired⟩ hjob h timeout).bind
      fun _ _ => Operation.confined_pure trivial
  | abortAll job =>
    have hjob : IsItemName job := hn job List.mem_cons_self
    exact (confined_abortAllBuilds connection.server hjob h).bind fun _ _ => Operation.confined_pure trivial
  | deleteJob job =>
    have hjob : IsItemName job := hn job List.mem_cons_self
    refine (confined_resolve connection.server h).bind fun scope hscope => ?_
    subst hscope
    exact (confined_deleteItem folder.named hjob (h.append [job]) "job").bind fun _ _ =>
      Operation.confined_pure trivial

theorem confined_runSteps (hi : 0 < connection.poller.interval) {folder : FolderPath}
    (h : ItemPath.Under top folder.segments) : ∀ steps : List Step,
    (∀ step ∈ steps, ∀ name ∈ step.itemNames, IsItemName name) →
    (runSteps connection folder steps).Confined top fun _ => True
  | [], _ => Program.confined_done trivial
  | step :: rest, hn => by
    have hrest := confined_runSteps hi h rest fun s hs => hn s (List.mem_cons_of_mem _ hs)
    rw [runSteps]
    refine (confined_timed _ (confined_execute hi h (hn step List.mem_cons_self))).bind fun result _ => ?_
    split
    · exact hrest.bind fun _ _ => Program.confined_done trivial
    · exact Program.confined_done trivial

/-- What a scenario does between its two looks at the clock. -/
def scenarioSteps (connection : Connection) (spec : Spec) : Program (List StepResult) := do
  Program.report ⟨.debug, "Running scenario: " ++ spec.name⟩ (.done ())
  let setup ← timed "setup" (applyTarget connection.server spec)
  let steps ← if setup.success then runSteps connection spec.folder spec.steps else pure []
  return setup :: steps

theorem runScenario_eq (connection : Connection) (spec : Spec) : runScenario connection spec = do
    let started ← Program.clock .done
    let steps ← scenarioSteps connection spec
    let ended ← Program.clock .done
    return Result.ofSteps spec.name (ended - started) steps := by
  unfold runScenario scenarioSteps
  simp only [bind_assoc, pure_bind]
  refine congrArg _ (funext fun started => congrArg _ (funext fun _ => congrArg _ (funext fun setup => ?_)))
  split
  · rw [bind_assoc]
    rfl
  · rfl

theorem confined_scenarioSteps (spec : Spec) (hb : connection.server.baseUrl = Memory.baseUrl)
    (hi : 0 < connection.poller.interval) (h : ItemPath.Under top spec.folder.segments)
    (hn : ∀ name ∈ spec.itemNames, IsItemName name) :
    (scenarioSteps connection spec).Confined top fun _ => True := by
  have hjobs : ∀ job ∈ spec.jobs, IsItemName job.name := fun job hjob =>
    hn _ (List.mem_append_left _ (List.mem_map_of_mem hjob))
  have hsteps : ∀ step ∈ spec.steps, ∀ name ∈ step.itemNames, IsItemName name := fun step hstep name hname =>
    hn _ (List.mem_append_right _ (List.mem_flatMap.2 ⟨step, hstep, hname⟩))
  refine (Program.confined_report _).bind fun _ _ => ?_
  refine (confined_timed _ (confined_applyTarget hb h hjobs)).bind fun setup _ => ?_
  split
  · exact (confined_runSteps hi h spec.steps hsteps).bind fun _ _ => Program.confined_done trivial
  · exact (Program.confined_done (P := fun _ => True) trivial).bind fun _ _ => Program.confined_done trivial

/-- **A scenario is confined to its top-level folder.** -/
theorem confined_runScenario (spec : Spec) (hb : connection.server.baseUrl = Memory.baseUrl)
    (hi : 0 < connection.poller.interval) (h : ItemPath.Under top spec.folder.segments)
    (hn : ∀ name ∈ spec.itemNames, IsItemName name) :
    (runScenario connection spec).Confined top fun _ => True := by
  rw [runScenario_eq]
  exact (confined_scenarioSteps spec hb hi h hn).timed (fun steps millis => Result.ofSteps spec.name millis steps)
    fun _ _ _ => trivial

/-! ## A suite of scenarios -/

theorem Spec.Proper.exists_root (h : spec.Proper) : ∃ top, spec.folder.root? = some top := by
  obtain ⟨top, rest, hsegments⟩ := List.exists_cons_of_ne_nil (Spec.validate_eq_ok h.valid).1
  exact ⟨top, by rw [FolderPath.root?, hsegments, List.head?_cons]⟩

/-- From the world `u`, `specs` came to `results` and left the world `v`, each of them as it would have alone in
the world `w`. -/
structure EachAlone (connection : Connection) (w u : World) (specs : List Spec) (results : List Result)
    (v : World) : Prop where
  results_eq : results = specs.map fun spec => (w.run (runScenario connection spec)).1
  idle : v.Idle
  worked : ∀ spec ∈ specs, ∀ top, spec.folder.root? = some top →
    v.server.part top = (w.run (runScenario connection spec)).2.server.part top
  others : ∀ top, (∀ spec ∈ specs, spec.folder.root? ≠ some top) → v.server.part top = u.server.part top

/-- One more scenario, before the others. -/
theorem EachAlone.cons {top : String} {w u v : World} {rest : List Spec} {results : List Result}
    {log : Array LogEvent} (htop : spec.folder.root? = some top)
    (hhead : ∀ s ∈ rest, spec.folder.root? ≠ s.folder.root?)
    (hconfined : (runScenario connection spec).Confined top fun _ => True) (hw : w.Idle) (hu : u.Idle)
    (hagree : u.server.part top = w.server.part top)
    (hrest : EachAlone connection w { (u.run (runScenario connection spec)).2 with log := log } rest results v) :
    EachAlone connection w u (spec :: rest) ((u.run (runScenario connection spec)).1 :: results) v := by
  obtain ⟨hresult, hpart, -⟩ := hconfined.alike u w hu hw hagree
  refine ⟨?_, hrest.idle, fun s hs other hother => ?_, fun other hother => ?_⟩
  · rw [List.map_cons, hresult, hrest.results_eq]
  · rcases List.mem_cons.1 hs with rfl | hs
    · cases htop.symm.trans hother
      rw [hrest.others top fun s hs => (htop ▸ hhead s hs).symm]
      exact hpart
    · exact hrest.worked s hs other hother
  · have hne : other ≠ top := fun e => hother spec List.mem_cons_self (e ▸ htop)
    rw [hrest.others other fun s hs => hother s (List.mem_cons_of_mem _ hs)]
    exact hconfined.others u hu other hne

theorem run_runEach_cons (connection : Connection) (u : World) (spec : Spec) (rest : List Spec) :
    ∃ log, u.run (runEach connection (spec :: rest)) =
      ((u.run (runScenario connection spec)).1 ::
        ({ (u.run (runScenario connection spec)).2 with log := log }.run (runEach connection rest)).1,
      ({ (u.run (runScenario connection spec)).2 with log := log }.run (runEach connection rest)).2) := by
  refine ⟨(u.run (runScenario connection spec)).2.log.push (u.run (runScenario connection spec)).1.event, ?_⟩
  rw [runEach, World.run_bind, World.run_bind, World.run_bind]
  rfl

theorem run_runAll (connection : Connection) (w : World) (specs : List Spec) :
    ∃ log log' millis,
      (w.run (runAll connection specs)).1 =
        .ofResults millis ({ w with log := log }.run (runEach connection specs)).1 ∧
      (w.run (runAll connection specs)).2 =
        { ({ w with log := log }.run (runEach connection specs)).2 with log := log' } := by
  rw [runAll, World.run_bind, World.run_bind, World.run_bind, World.run_bind, World.run_bind]
  exact ⟨w.log.push _, _, _, rfl, rfl⟩

section
variable (hb : connection.server.baseUrl = Memory.baseUrl) (hi : 0 < connection.poller.interval) {w : World}
  (hw : w.Idle)
include hb hi hw

/-- **Each scenario comes to what it would come to alone**, whatever ran before it under other folders. -/
theorem runEach_alone : ∀ (specs : List Spec) (u : World), u.Idle → (∀ spec ∈ specs, spec.Proper) →
    specs.Pairwise (fun a b => a.folder.root? ≠ b.folder.root?) →
    (∀ spec ∈ specs, ∀ top, spec.folder.root? = some top → u.server.part top = w.server.part top) →
    EachAlone connection w u specs (u.run (runEach connection specs)).1 (u.run (runEach connection specs)).2
  | [], u, hu, _, _, _ => ⟨rfl, hu, fun _ hspec => absurd hspec List.not_mem_nil, fun _ _ => rfl⟩
  | spec :: rest, u, hu, hproper, hapart, hagree => by
    obtain ⟨hhead, hrest⟩ := List.pairwise_cons.1 hapart
    obtain ⟨hspec, hproper⟩ := List.forall_mem_cons.1 hproper
    obtain ⟨hhere, hagree⟩ := List.forall_mem_cons.1 hagree
    obtain ⟨top, htop⟩ := hspec.exists_root
    have hconfined := confined_runScenario spec hb hi htop hspec.named
    have hidle := hconfined.idle u hu
    -- `spec` leaves the parts of the scenarios after it as they were
    have hleft : ∀ s ∈ rest, ∀ other, s.folder.root? = some other →
        (u.run (runScenario connection spec)).2.server.part other = w.server.part other := by
      intro s hs other hother
      have hne : other ≠ top := fun e => hhead s hs (by rw [htop, hother, e])
      rw [hconfined.others u hu other hne, hagree s hs other hother]
    obtain ⟨log, hrun⟩ := run_runEach_cons connection u spec rest
    rw [hrun]
    exact .cons htop hhead hconfined hw hu (hhere top htop)
      (runEach_alone rest _ ⟨hidle.pending, hidle.wellFormed⟩ hproper hrest hleft)

theorem runAll_alone {specs : List Spec} (hproper : ∀ spec ∈ specs, spec.Proper)
    (hapart : specs.Pairwise fun a b => a.folder.root? ≠ b.folder.root?) :
    ∃ millis, (w.run (runAll connection specs)).1 =
        .ofResults millis (specs.map fun spec => (w.run (runScenario connection spec)).1) ∧
      EachAlone connection w w specs (w.run (runAll connection specs)).1.results
        (w.run (runAll connection specs)).2 := by
  obtain ⟨log, log', millis, htally, hworld⟩ := run_runAll connection w specs
  have heach := runEach_alone hb hi hw specs { w with log := log } ⟨hw.pending, hw.wellFormed⟩ hproper hapart
    fun _ _ _ _ => rfl
  rw [htally, hworld]
  exact ⟨millis, congrArg _ heach.results_eq, heach.results_eq, ⟨heach.idle.pending, heach.idle.wellFormed⟩,
    heach.worked, heach.others⟩

/-- **The order of scenarios under different top-level folders plays no role** but for the order of their
results. -/
theorem runAll_perm {specs specs' : List Spec} (hperm : specs.Perm specs') (hproper : ∀ spec ∈ specs, spec.Proper)
    (hapart : specs.Pairwise fun a b => a.folder.root? ≠ b.folder.root?) :
    ∃ millis millis',
      (w.run (runAll connection specs)).1 =
        .ofResults millis (specs.map fun spec => (w.run (runScenario connection spec)).1) ∧
      (w.run (runAll connection specs')).1 =
        .ofResults millis' (specs'.map fun spec => (w.run (runScenario connection spec)).1) ∧
      (w.run (runAll connection specs)).2.server.tree = (w.run (runAll connection specs')).2.server.tree := by
  have hapart' : specs'.Pairwise fun a b => a.folder.root? ≠ b.folder.root? := hperm.pairwise hapart fun h => h.symm
  obtain ⟨millis, htally, heach⟩ := runAll_alone hb hi hw hproper hapart
  obtain ⟨millis', htally', heach'⟩ := runAll_alone hb hi hw (fun s hs => hproper s (hperm.mem_iff.2 hs)) hapart'
  have hparts : ∀ top, (w.run (runAll connection specs)).2.server.part top =
      (w.run (runAll connection specs')).2.server.part top := by
    intro top
    by_cases h : ∃ spec ∈ specs, spec.folder.root? = some top
    · obtain ⟨spec, hspec, htop⟩ := h
      rw [heach.worked spec hspec top htop, heach'.worked spec (hperm.mem_iff.1 hspec) top htop]
    · have hno : ∀ spec ∈ specs, spec.folder.root? ≠ some top := fun spec hspec htop => h ⟨spec, hspec, htop⟩
      rw [heach.others top hno, heach'.others top fun spec hspec => hno spec (hperm.mem_iff.2 hspec)]
  exact ⟨millis, millis', htally, htally', Tree.ext_part heach.idle.wellFormed heach'.idle.wellFormed
    fun top => congrArg Server.tree (hparts top)⟩

end

/-- The counts do not depend on the order of the results. -/
theorem ofResults_perm {results results' : List Result} (h : results.Perm results') (millis millis' : Nat) :
    (Tally.ofResults millis results).passed = (Tally.ofResults millis' results').passed ∧
      (Tally.ofResults millis results).failed = (Tally.ofResults millis' results').failed ∧
      (Tally.ofResults millis results).timedOut = (Tally.ofResults millis' results').timedOut :=
  ⟨h.countP_eq _, h.countP_eq _, h.countP_eq _⟩

/-- **Two scenarios under different top-level folders do not influence each other**, in whichever order they
run: each comes to what it comes to alone, and they leave the same items. -/
theorem runAll_swap (connection : Connection) (hurl : connection.server.baseUrl = Memory.baseUrl)
    (hi : 0 < connection.poller.interval) {a b : Spec} (ha : a.Proper) (hb : b.Proper)
    (hne : a.folder.root? ≠ b.folder.root?) {w : World} (hpending : w.pending = [])
    (wf : w.server.tree.WellFormed) :
    ∃ resultA resultB,
      (w.run (runScenario connection a)).1 = resultA ∧ (w.run (runScenario connection b)).1 = resultB ∧
      (w.run (runAll connection [a, b])).1.results = [resultA, resultB] ∧
      (w.run (runAll connection [b, a])).1.results = [resultB, resultA] ∧
      (w.run (runAll connection [a, b])).1.passed = (w.run (runAll connection [b, a])).1.passed ∧
      (w.run (runAll connection [a, b])).1.failed = (w.run (runAll connection [b, a])).1.failed ∧
      (w.run (runAll connection [a, b])).1.timedOut = (w.run (runAll connection [b, a])).1.timedOut ∧
      (w.run (runAll connection [a, b])).2.server.tree = (w.run (runAll connection [b, a])).2.server.tree := by
  have hproper : ∀ spec ∈ [a, b], spec.Proper := by simp [ha, hb]
  have hapart : [a, b].Pairwise fun a b => a.folder.root? ≠ b.folder.root? := by simp [hne]
  have hperm : [a, b].Perm [b, a] := .swap b a []
  obtain ⟨millis, millis', htally, htally', htree⟩ := runAll_perm hurl hi ⟨hpending, wf⟩ hperm hproper hapart
  obtain ⟨hpassed, hfailed, htimed⟩ :=
    ofResults_perm (hperm.map fun spec => (w.run (runScenario connection spec)).1) millis millis'
  refine ⟨_, _, rfl, rfl, ?_, ?_, ?_, ?_, ?_, htree⟩
  · rw [htally]
    rfl
  · rw [htally']
    rfl
  · rw [htally, htally', hpassed]
  · rw [htally, htally', hfailed]
  · rw [htally, htally', htimed]

/-- A scenario that waits for a build that nobody ends. -/
def waiting : Spec where
  name := "waiting"
  description := ""
  tags := []
  folder := ⟨["a"], by decide⟩
  deleteExistingRoot := true
  jobs := [⟨"50 %", .freestyle, []⟩]
  steps := [.build "50 %", .waitResult "50 %" .success 300]

/-- A scenario whose folder somebody else makes first, with a name that begins like that of `waiting`. -/
def raced : Spec where
  name := "raced"
  description := ""
  tags := []
  folder := ⟨["a%2F"], by decide⟩
  deleteExistingRoot := false
  jobs := [⟨"c+d", .freestyle, []⟩]
  steps := [.build "c+d", .deleteJob "c+d"]

def crowded : World :=
  .ofServer { Server.empty with
    tree := ((Tree.empty.insert ["a"] (.ofKind .folder)).insert ["a", "old"] (.ofKind .job)).insert ["ab"]
      (.ofKind .folder)
    racing := [["a%2F"]] }

/-- The in-memory server, with a short text for every definition. -/
def brief : Connection := .ofServer ⟨Memory.baseUrl, .directory "brief" fun _ => .ok "x", none⟩ ⟨400⟩

/-- One scenario times out and the other fails, whichever of them runs first. -/
theorem runAll_swap_crowded :
    brief.server.baseUrl = Memory.baseUrl ∧ 0 < brief.poller.interval ∧ waiting.Proper ∧ raced.Proper ∧
      waiting.folder.root? ≠ raced.folder.root? ∧ crowded.pending = [] ∧ crowded.server.tree.WellFormed ∧
      ∃ late lost, late.timedOut = true ∧ lost.success = false ∧
        (crowded.run (runAll brief [waiting, raced])).1.results = [late, lost] ∧
        (crowded.run (runAll brief [raced, waiting])).1.results = [lost, late] ∧
        (crowded.run (runAll brief [waiting, raced])).2.server.tree =
          (crowded.run (runAll brief [raced, waiting])).2.server.tree := by
  have hwaiting : waiting.Proper := ⟨by decide, by decide⟩
  have hraced : raced.Proper := ⟨by decide, by decide⟩
  have hne : waiting.folder.root? ≠ raced.folder.root? := by decide
  have wf : crowded.server.tree.WellFormed := by decide
  obtain ⟨late, lost, hlate, hlost, hresults, hresults', -, -, -, htree⟩ := runAll_swap brief rfl (by decide)
    hwaiting hraced hne (w := crowded) rfl wf
  have htimed : (crowded.run (runScenario brief waiting)).1.timedOut = true := by decide +kernel
  have hfailed : (crowded.run (runScenario brief raced)).1.success = false := by decide +kernel
  exact ⟨rfl, by decide, hwaiting, hraced, hne, rfl, wf, late, lost, hlate ▸ htimed, hlost ▸ hfailed, hresults,
    hresults', htree⟩

end JobHierarchy.Scenario
