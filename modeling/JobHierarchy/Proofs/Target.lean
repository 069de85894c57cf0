import JobHierarchy.Proofs.FolderChains
import JobHierarchy.Scenario.Run
import Mathlib.Data.List.Induction
import Mathlib.Data.List.TakeWhile
/-!
# The target of a scenario

A scenario that starts without its top-level folder is set up to one and the same state below that folder,
whatever was there before: a chain of empty folders, and in the deepest of them the last job given for each
name (`Scenario.Spec.target`). Everything else stays as it was (`Scenario.applyTarget_converges`).
-/

namespace JobHierarchy

namespace Memory

/-- No deletion and no creation is made to fail, and no creation is raced. -/
structure Server.Undisturbed (s : Server) : Prop where
  deleteFailures : s.deleteFailures = []
  folderFailures : s.folderFailures = []
  racing : s.racing = []

namespace Server.Undisturbed

variable {s : Server}

theorem trips (hu : s.Undisturbed) (path : ItemPath) : s.trips path = false :=
  trips_eq_false_iff.2 ⟨by rw [hu.folderFailures]; rfl, by rw [hu.racing]; exact List.not_mem_nil⟩

theorem firstTrip? (hu : s.Undisturbed) (paths : List ItemPath) : s.firstTrip? paths = none :=
  List.find?_eq_none.2 fun q _ => Bool.not_eq_true _ ▸ hu.trips q

/-- A chain of folders is made as it is given. -/
theorem chained (hu : s.Undisturbed) (paths : List ItemPath) :
    s.chained paths = (s.recordAll (paths.map .createFolder)).withTree (s.tree.addFolders paths) := by
  have hall : s.untripped paths = paths := List.takeWhile_eq_self_iff.2 fun q _ => by simp [hu.trips]
  simp [Server.chained, attempted, made, hall, hu.firstTrip?, hu.racing, withTree, recordAll]

end Server.Undisturbed

namespace Tree

variable {tree : Tree}

/-! ## Jobs put into a tree -/

/-- The tree with jobs put into a folder, one after the other. -/
def putJobs (tree : Tree) (folder : ItemPath) (triggered : Option BuildResult) (jobs : List Scenario.JobSpec) : Tree :=
  jobs.foldl (fun t job => t.replace (folder ++ [job.name]) (.ofTemplate job.kind job.params triggered)) tree

/-- **The last job of a name counts.** -/
theorem get?_putJobs (folder : ItemPath) (triggered : Option BuildResult) (jobs : List Scenario.JobSpec)
    (h : ∀ job ∈ jobs, ∀ q, folder ++ [job.name] <+: q → tree.get? q = none) (q : ItemPath) :
    (tree.putJobs folder triggered jobs).get? q =
      ((jobs.reverse.find? fun job => q = folder ++ [job.name]).map fun job =>
        Node.ofTemplate job.kind job.params triggered).or (tree.get? q) := by
  -- from the last job on, which is the first that a look-up from behind meets
  induction jobs using List.reverseRecOn with
  | nil => rfl
  | append_singleton jobs job ih =>
    have ih := ih fun job' hjob' => h job' (List.mem_append_left _ hjob')
    rw [putJobs, List.foldl_append, List.foldl_cons, List.foldl_nil, get?_replace, List.reverse_concat]
    by_cases hq : q = folder ++ [job.name]
    · rw [if_pos hq, List.find?_cons_of_pos (by simpa using hq), Option.map_some, Option.some_or]
    · rw [if_neg hq, List.find?_cons_of_neg (by simpa using hq)]
      refine Eq.trans ?_ ih
      by_cases hpre : folder ++ [job.name] <+: q
      · -- in the erased job there was nothing, and no job of another name is in it
        have hnone : jobs.reverse.find? (fun job => decide (q = folder ++ [job.name])) = none := by
          refine List.find?_eq_none.2 fun job' _ hjob' => hq ?_
          have hq' : q = folder ++ [job'.name] := of_decide_eq_true hjob'
          rw [hq'] at hpre ⊢
          exact (hpre.eq_of_length (by simp)).symm
        rw [if_pos hpre, ih, hnone, Option.map_none, Option.none_or]
        exact (h job (by simp) q hpre).symm
      · rw [if_neg hpre]
        rfl

end Tree

end Memory

namespace JobServer

open Memory Memory.Server

variable {server : JobServer} {s : Server} {above folder : ItemPath} {name : String}

/-! ## Making the folders -/

/-- **A chain of folders from a clean slate.** -/
theorem createFolderChain_yields (hm : server.InMemory) (hu : s.Undisturbed) (wf : s.tree.WellFormed)
    {path : FolderPath} (hpath : path.segments ≠ []) :
    s.Yields (server.createFolderChain path true) (.ok (handleOf path.segments))
      ((s.recordAll (.deleteJob (path.segments.take 1) :: path.prefixes.map .createFolder)).withTree
        ((s.tree.eraseBelow (path.segments.take 1)).addFolders path.prefixes)) := by
  obtain ⟨root, rest, hsegments⟩ := List.exists_cons_of_ne_nil hpath
  have hchain := createFolderChain_clean hm wf hsegments (by rw [hu.deleteFailures]; rfl)
  have hu₁ : ((s.recordAll [.deleteJob [root]]).withTree (s.tree.eraseBelow [root])).Undisturbed :=
    ⟨hu.deleteFailures, hu.folderFailures, hu.racing⟩
  rw [hu₁.chained, chainOutcome, hu.firstTrip?, recordAll_withTree, recordAll_recordAll] at hchain
  have hroot : path.segments.take 1 = [root] := by rw [hsegments]; rfl
  rw [hroot]
  exact hchain

/-! ## Making the jobs -/

/-- The requests that put jobs into a folder. -/
def jobCalls (folder : ItemPath) (jobs : List Scenario.JobSpec) : List Call :=
  jobs.flatMap fun job => replaceCalls job.kind (folder ++ [job.name])

theorem createJobs_yields (hm : server.InMemory) (hne : folder ≠ []) (hfolder : folder.Named) :
    ∀ (jobs : List Scenario.JobSpec) (s : Server), (∀ job ∈ jobs, IsItemName job.name ∧ job.kind ≠ .folder) →
      s.deleteFailures = [] → s.tree.WellFormed → s.tree.holds folder = true →
      s.Yields (jobs.forM fun job => do
          let _ ← server.createJob job.kind (some (handleOf folder)) job.name job.params) (.ok ())
        ((s.recordAll (jobCalls folder jobs)).withTree (s.tree.putJobs folder s.triggeredResult jobs))
  | [], s, _, _, _, _ => by
    have hs : (s.recordAll []).withTree (s.tree.putJobs folder s.triggeredResult []) = s := by rw [recordAll_nil]; rfl
    exact hs.symm ▸ s.yields_pure ()
  | job :: jobs, s, hjobs, hf, wf, hhold => by
    obtain ⟨hn, hk⟩ := hjobs job List.mem_cons_self
    have hmake := createJob_yields hm hk job.params hfolder hn wf (.inr hhold) (by rw [hf]; rfl)
    have ih := createJobs_yields hm hne hfolder jobs
      ((s.recordAll (replaceCalls job.kind (folder ++ [job.name]))).withTree
        (s.tree.replace (folder ++ [job.name]) (.ofTemplate job.kind job.params s.triggeredResult)))
      (fun job' h => hjobs job' (List.mem_cons_of_mem _ h)) hf (wf.replace _ (.inr hhold) hn)
      (Tree.holds_replace.trans hhold)
    rw [recordAll_withTree, recordAll_recordAll] at ih
    rw [scopeOf_of_ne_nil hne] at hmake
    have hone := hmake.bind (f := fun _ => pure ()) (yields_pure _ ())
    rw [List.forM]
    exact hone.bind ih

end JobServer

namespace Scenario

open Memory Memory.Server JobServer

variable {server : JobServer} {spec : Spec}

/-! ## The state that a scenario declares -/

namespace Spec

/-- The path of the top-level folder that the scenario lies in. -/
def root (spec : Spec) : ItemPath := spec.folder.segments.take 1

/-- The last job that is given for the item at `path`. -/
def jobAt? (spec : Spec) (path : ItemPath) : Option JobSpec :=
  spec.jobs.reverse.find? fun job => path = spec.folder.segments ++ [job.name]

/-- The item that is to be at `path`: a job in the deepest folder, or an empty folder on the way to it. -/
def target (spec : Spec) (triggered : Option BuildResult) (path : ItemPath) : Option Node :=
  ((spec.jobAt? path).map fun job => Node.ofTemplate job.kind job.params triggered).or
    (if spec.folder.prefixes.contains path then some (.ofKind .folder) else none)

theorem validate_eq_ok (h : spec.validate = .ok ()) :
    spec.folder.segments ≠ [] ∧ ∀ job ∈ spec.jobs, job.kind ≠ .folder := by
  unfold validate at h
  split at h
  · cases h
  · next htop =>
    split at h
    · cases h
    · next hnone =>
      refine ⟨fun e => htop (by rw [FolderPath.isTopLevel, e]; rfl), fun job hjob hk => ?_⟩
      exact List.find?_eq_none.1 hnone job hjob (by simpa using hk)

theorem root_prefix (spec : Spec) (rest : ItemPath) : spec.root <+: spec.folder.segments ++ rest :=
  (List.take_prefix 1 _).trans (List.prefix_append _ _)

theorem root_prefix_of_mem (spec : Spec) {q : ItemPath} (h : q ∈ spec.folder.prefixes) : spec.root <+: q := by
  obtain ⟨hne, rest, hrest⟩ := FolderPath.mem_prefixes.1 h
  rw [root, ← hrest, List.take_append_of_le_length (List.length_pos_iff.2 hne)]
  exact List.take_prefix 1 q

theorem jobAt?_eq_some {q : ItemPath} {job : JobSpec} (h : spec.jobAt? q = some job) :
    q = spec.folder.segments ++ [job.name] := by
  simpa using List.find?_some h

end Spec

/-- The tree with a scenario set up from a clean slate. -/
def setUp (spec : Spec) (triggered : Option BuildResult) (tree : Tree) : Tree :=
  ((tree.eraseBelow spec.root).addFolders spec.folder.prefixes).putJobs spec.folder.segments triggered spec.jobs

theorem get?_setUp (spec : Spec) (triggered : Option BuildResult) (tree : Tree) (q : ItemPath) :
    (setUp spec triggered tree).get? q = if spec.root <+: q then spec.target triggered q else tree.get? q := by
  have hbase : ∀ q, ((tree.eraseBelow spec.root).addFolders spec.folder.prefixes).get? q =
      if q ∈ spec.folder.prefixes then some (.ofKind .folder) else if spec.root <+: q then none else tree.get? q := by
    intro q
    rw [Tree.get?_addFolders, Tree.get?_eraseBelow]
  have hbelow : ∀ job ∈ spec.jobs, ∀ q, spec.folder.segments ++ [job.name] <+: q →
      ((tree.eraseBelow spec.root).addFolders spec.folder.prefixes).get? q = none := by
    intro job _ q hpre
    have hno : q ∉ spec.folder.prefixes := fun hq =>
      ItemPath.not_item_prefix _ _ (hpre.trans (FolderPath.mem_prefixes.1 hq).2)
    rw [hbase, if_neg hno, if_pos ((spec.root_prefix [job.name]).trans hpre)]
  refine (Tree.get?_putJobs spec.folder.segments triggered spec.jobs hbelow q).trans ?_
  rw [hbase]
  by_cases hroot : spec.root <+: q
  · simp only [if_pos hroot, Spec.target, List.contains_iff_mem]
    rfl
  · have hjob : spec.jobAt? q = none := by
      cases hj : spec.jobAt? q with
      | none => rfl
      | some job => exact absurd (Spec.jobAt?_eq_some hj ▸ spec.root_prefix [job.name]) hroot
    have hno : q ∉ spec.folder.prefixes := fun hq => hroot (spec.root_prefix_of_mem hq)
    rw [Spec.jobAt?] at hjob
    rw [hjob, if_neg hno, if_neg hroot, if_neg hroot, Option.map_none, Option.none_or]

theorem applyTarget_yields {s : Server} (hm : server.InMemory) (hvalid : spec.validate = .ok ())
    (hroot : spec.deleteExistingRoot = true) (hnames : ∀ job ∈ spec.jobs, IsItemName job.name)
    (hu : s.Undisturbed) (wf : s.tree.WellFormed) :
    ∃ calls, s.Yields (applyTarget server spec)
      (.ok (some (toString spec.jobs.length ++ " job(s) in " ++ spec.folder.display)))
      ((s.recordAll calls).withTree (setUp spec s.triggeredResult s.tree)) := by
  obtain ⟨hne, hkinds⟩ := Spec.validate_eq_ok hvalid
  have hchain := createFolderChain_yields hm hu wf hne
  have hgone : ∀ q ∈ spec.folder.prefixes, (s.tree.eraseBelow spec.root).contains q = false := by
    intro q hq
    rw [Tree.contains_eq_false_iff, Tree.get?_eraseBelow, if_pos (spec.root_prefix_of_mem hq)]
  have wf₁ : ((s.tree.eraseBelow spec.root).addFolders spec.folder.prefixes).WellFormed :=
    .addFolders spec.folder.segments _ [] (wf.eraseBelow _) spec.folder.named (.inl rfl) hgone
  have hhold : ((s.tree.eraseBelow spec.root).addFolders spec.folder.prefixes).holds spec.folder.segments = true := by
    refine Tree.holds_iff.2 ⟨.ofKind .folder, ?_, by decide⟩
    rw [Tree.get?_addFolders, if_pos (FolderPath.mem_prefixes.2 ⟨hne, List.prefix_rfl⟩)]
  have hjobs := createJobs_yields hm hne spec.folder.named spec.jobs
    ((s.recordAll (.deleteJob spec.root :: spec.folder.prefixes.map .createFolder)).withTree
      ((s.tree.eraseBelow spec.root).addFolders spec.folder.prefixes))
    (fun job hjob => ⟨hnames job hjob, hkinds job hjob⟩) hu.deleteFailures wf₁ hhold
  rw [recordAll_withTree, recordAll_recordAll] at hjobs
  rw [applyTarget, hroot]
  exact ⟨_, hchain.bind (hjobs.bind (yields_pure _ _))⟩

/-- **Setting up a scenario converges to the state it declares**, whatever was there before: it succeeds, what
is at or below its top-level folder is then the target and nothing else, and all other items are as they
were. Two servers that differ only below that folder so end with the same items. -/
theorem applyTarget_converges (hm : server.InMemory) (spec : Spec) (hvalid : spec.validate = .ok ())
    (hroot : spec.deleteExistingRoot = true) (hnames : ∀ job ∈ spec.jobs, IsItemName job.name)
    (s : Server) (hu : s.Undisturbed) (wf : s.tree.WellFormed) :
    ∃ s', s.Yields (applyTarget server spec)
        (.ok (some (toString spec.jobs.length ++ " job(s) in " ++ spec.folder.display))) s' ∧
      (∀ q, s'.tree.get? q = if spec.root <+: q then spec.target s.triggeredResult q else s.tree.get? q) ∧
      ∀ (s₂ s₂' : Server) (x : Except JobHierarchy.Error (Option String)), s₂.Undisturbed → s₂.tree.WellFormed →
        s₂.triggeredResult = s.triggeredResult → (∀ q, ¬ spec.root <+: q → s₂.tree.get? q = s.tree.get? q) →
        s₂.Yields (applyTarget server spec) x s₂' → s₂'.tree = s'.tree := by
  obtain ⟨calls, hy⟩ := applyTarget_yields hm hvalid hroot hnames hu wf
  refine ⟨_, hy, get?_setUp spec _ _, fun s₂ s₂' x hu₂ wf₂ htriggered hagree hy₂ => ?_⟩
  obtain ⟨calls₂, hset⟩ := applyTarget_yields hm hvalid hroot hnames hu₂ wf₂
  rw [(hy₂.unique hset).2]
  refine Tree.ext fun q => ?_
  rw [withTree_tree, withTree_tree, get?_setUp, get?_setUp, htriggered]
  by_cases hq : spec.root <+: q
  · rw [if_pos hq, if_pos hq]
  · rw [if_neg hq, if_neg hq, hagree q hq]

/-- A scenario that gives one of its jobs twice. -/
def nightly : Spec where
  name := "nightly"
  description := ""
  tags := []
  folder := ⟨["ci", "a+b"], by decide⟩
  deleteExistingRoot := true
  jobs := [⟨"50 %", .pipeline, []⟩, ⟨"app", .freestyle, [("command", "make")]⟩,
    ⟨"50 %", .multibranch, [("repo", "app")]⟩]
  steps := []

/-- Items from before, in the scenario's folder and beside it. -/
def leftOver : Server :=
  { Server.empty with
    tree := ((((Tree.empty.insert ["ci"] (.ofKind .folder)).insert ["ci", "a+b"] (.ofKind .container)).insert
      ["ci", "a+b", "old"] (.ofKind .job)).insert ["ci2"] (.ofKind .folder)).insert ["ci2", "kept"] (.ofKind .job)
    triggeredResult := some .success }

theorem applyTarget_converges_nightly :
    (ofUrl Memory.baseUrl).InMemory ∧ nightly.validate = .ok () ∧ nightly.deleteExistingRoot = true ∧
      (∀ job ∈ nightly.jobs, IsItemName job.name) ∧ leftOver.Undisturbed ∧ leftOver.tree.WellFormed ∧
      ∃ s', leftOver.Yields (applyTarget (ofUrl Memory.baseUrl) nightly) (.ok (some "3 job(s) in ci/a+b")) s' ∧
        s'.tree.get? ["ci", "a+b"] = some (.ofKind .folder) ∧
        s'.tree.get? ["ci", "a+b", "50 %"] =
          some (.ofTemplate .multibranch [("repo", "app")] (some .success)) ∧
        s'.tree.get? ["ci", "a+b", "old"] = none ∧
        s'.tree.get? ["ci2", "kept"] = some (.ofKind .job) := by
  have hvalid : nightly.validate = .ok () := by decide
  have hnames : ∀ job ∈ nightly.jobs, IsItemName job.name := by decide
  have hu : leftOver.Undisturbed := ⟨by decide, by decide, by decide⟩
  have wf : leftOver.tree.WellFormed := by decide
  obtain ⟨s', hy, hnodes, -⟩ := applyTarget_converges inMemory_ofUrl nightly hvalid rfl hnames leftOver hu wf
  refine ⟨inMemory_ofUrl, hvalid, rfl, hnames, hu, wf, s', hy, ?_, ?_, ?_, ?_⟩
  · rw [hnodes]; decide
  · have hjob : nightly.jobAt? ["ci", "a+b", "50 %"] = some ⟨"50 %", .multibranch, [("repo", "app")]⟩ := by decide
    have htriggered : leftOver.triggeredResult = some .success := by decide
    rw [hnodes, if_pos (by decide), Spec.target, hjob, htriggered, Option.map_some, Option.some_or]
  · rw [hnodes]; decide
  · rw [hnodes]; decide

end Scenario

end JobHierarchy
