import JobHierarchy.CommandLine.Perform
import JobHierarchy.Proofs.Items
import JobHierarchy.Proofs.Resolutions
import JobHierarchy.Proofs.Waiting
import JobHierarchy.Scenario.Run
/-!
# Deleting jobs by path

A step of a scenario and a command delete a job by the path of its folder and its name. Both do the same: they resolve
the path without creation, and then delete what has the name there (`JobServer.deleteAt`). The second part takes an
item that is gone already for deleted. The first part does not take a folder that is gone for anything but a fault.

In a well-formed tree nothing is left of the job either way, since nothing lies below a gap. So the tree is always as it
should be, and only what the caller is told depends on where the deletion came too late (`deletion_clears`,
`not_every_deletion_tolerated`).
-/

namespace JobHierarchy

namespace Memory

/-! ## From operations to programs -/

namespace Server

variable {α β : Type} {s s₁ s₂ : Server}

theorem Gives.bind {p : Program α} {f : α → Program β} {a : α} {b : β} (h : s.Gives p a s₁) (hf : s₁.Gives (f a) b s₂) :
    s.Gives (p >>= f) b s₂ := by
  intro w hw
  obtain ⟨log, hlog⟩ := h w hw
  obtain ⟨log', hlog'⟩ := hf { w with server := s₁, log := log } rfl
  refine ⟨log', ?_⟩
  rw [World.run_bind, hlog]
  exact hlog'

theorem gives_pure (s : Server) (a : α) : s.Gives (pure a) a s := by
  rintro w rfl
  exact ⟨w.log, rfl⟩

/-- A command that does one operation and prints a text if that succeeds. -/
theorem Yields.gives_work {t : Operation α} {x : Except Error α} (h : s.Yields t x s₁) (text : String) :
    s.Gives (CommandLine.Work.ofOperation t >>= fun _ => pure text).run
      ((x.mapError .cause).map fun _ => text) s₁ := by
  have hwork : s.Gives (CommandLine.Work.ofOperation t).run (x.mapError .cause) s₁ :=
    Gives.bind h (s₁.gives_pure _)
  rw [ExceptT.run_bind]
  cases x with
  | ok a => exact hwork.bind (s₁.gives_pure _)
  | error e => exact hwork.bind (s₁.gives_pure _)

end Server

/-! ## What is below a gap -/

namespace Tree

variable {tree : Tree} {folder : FolderPath} {q : ItemPath}

theorem contains_of_gap? (wf : tree.WellFormed) (h : tree.gap? folder.prefixes = some q) (name : String) :
    tree.contains (folder.segments ++ [name]) = false := by
  obtain ⟨hq, before, behind, hpaths, -⟩ := gap?_eq_some_iff.1 h
  obtain ⟨hne, rest, hrest⟩ := FolderPath.mem_prefixes.1 (by simp [hpaths] : q ∈ folder.prefixes)
  rw [← hrest, List.append_assoc]
  exact wf.contains_below_eq_false hne hq (by simp)

/-- The requests of a deletion by path. -/
def deleteAtCalls (tree : Tree) (folder : FolderPath) (name : String) : List Call :=
  tree.walkCalls folder.prefixes ++
    if (tree.gap? folder.prefixes).isNone then [.deleteJob (folder.segments ++ [name])] else []

end Tree

end Memory

open Memory Memory.Server

variable {s : Server} {folder : FolderPath} {name : String}

/-! ## The operation -/

namespace JobServer

/-- Deletes the job `name` in a folder, which has to be there. -/
def deleteAt (server : JobServer) (folder : FolderPath) (name : String) : Operation Unit := do
  deleteJob (← server.resolve folder false) name

/-- The tree is the same in the end, wherever the way down stops. -/
theorem deleteAt_yields (server : JobServer) (wf : s.tree.WellFormed) (hn : IsItemName name)
    (hf : s.deleteFailures.lookup (folder.segments ++ [name]) = none) :
    s.Yields (server.deleteAt folder name)
      (match s.tree.gap? folder.prefixes with
        | none => .ok ()
        | some q => .error (s.tree.gapFault q))
      ((s.recordAll (s.tree.deleteAtCalls folder name)).withTree (s.tree.eraseBelow (folder.segments ++ [name]))) := by
  have hwalk := resolve_looks server s folder
  rw [Tree.deleteAtCalls]
  cases hgap : s.tree.gap? folder.prefixes with
  | some q =>
    rw [hgap] at hwalk
    rw [wf.eraseBelow_of_absent (by simp) (Tree.contains_of_gap? wf hgap name), Option.isNone_some,
      if_neg Bool.false_ne_true, List.append_nil]
    exact hwalk.bind_error _
  | none =>
    rw [hgap] at hwalk
    have hdelete := deleteItem_yields (s := s.recordAll (s.tree.walkCalls folder.prefixes)) "job"
      (scopePath_scopeOf folder.named) hn wf hf
    rw [recordAll_recordAll, ← folder.handle?_eq] at hdelete
    rw [Option.isNone_none, if_pos rfl]
    exact hwalk.bind hdelete

end JobServer

/-! ## The step and the command -/

/-- A step that deletes a job does so by path, and has nothing to say. -/
theorem Scenario.execute_deleteJob (connection : Connection) (folder : FolderPath) (name : String) :
    execute connection folder (.deleteJob name) = connection.server.deleteAt folder name >>= fun _ => pure none :=
  (bind_assoc _ _ _).symm

/-- What a deletion by path comes to, the step and the command come to. -/
theorem Memory.Server.Yields.deletions {connection : Connection} {x : Except Error Unit} {s' : Server}
    (h : s.Yields (connection.server.deleteAt folder name) x s') :
    s.Yields (Scenario.execute connection folder (.deleteJob name)) (x.map fun _ => none) s' ∧
    ∀ display, s.Gives ((CommandLine.Command.job (.delete name folder)).perform display connection).run
      ((x.mapError .cause).map fun _ => CommandLine.successLine ("Job deleted: " ++ folder.displayItem name)) s' := by
  rw [Scenario.execute_deleteJob]
  refine ⟨?_, fun display => h.gives_work _⟩
  cases x with
  | ok _ => exact h.bind (yields_pure _ _)
  | error e => exact h.bind_error _

/-- **Deleting by path** leaves no item at or below the path and every other item as it was, whether or not it succeeds.
It succeeds exactly if the folder is there, with or without the job in it. Otherwise the caller is told what is wrong at
the first gap on the way, though nothing was left to delete. -/
theorem deletion_clears (connection : Connection) (folder : FolderPath) (wf : s.tree.WellFormed) (hn : IsItemName name)
    (hf : s.deleteFailures.lookup (folder.segments ++ [name]) = none) :
    ∃ (x : Except Error Unit) (calls : List Call) (tree : Tree),
      (∀ q, tree.get? q = if folder.segments ++ [name] <+: q then none else s.tree.get? q) ∧
      (x = .ok () ↔ ∀ q ∈ folder.prefixes, s.tree.holds q = true) ∧
      (∀ e, x = .error e → s.tree.Blocks folder e) ∧
      s.Yields (Scenario.execute connection folder (.deleteJob name)) (x.map fun _ => none)
        ((s.recordAll calls).withTree tree) ∧
      ∀ display, s.Gives ((CommandLine.Command.job (.delete name folder)).perform display connection).run
        ((x.mapError .cause).map fun _ => CommandLine.successLine ("Job deleted: " ++ folder.displayItem name))
        ((s.recordAll calls).withTree tree) := by
  have hdelete := JobServer.deleteAt_yields connection.server wf hn hf
  refine ⟨_, _, _, s.tree.get?_eraseBelow _, ?_, ?_, hdelete.deletions⟩
  · rw [← Tree.gap?_eq_none_iff]
    cases s.tree.gap? folder.prefixes <;> simp
  · intro e he
    cases hgap : s.tree.gap? folder.prefixes with
    | none =>
      rw [hgap] at he
      cases he
    | some q =>
      rw [hgap] at he
      cases he
      exact Tree.blocks_of_gap? hgap

/-- A connection to a server in memory. -/
def inMemory : Connection := .ofServer (.ofUrl Memory.baseUrl) .default

/-- A folder with two jobs, of which one name begins the other. -/
def paired : Server :=
  { Server.empty with
    tree := ((Tree.empty.insert ["t"] (.ofKind .folder)).insert ["t", "job"] (.ofKind .job)).insert ["t", "job2"]
      (.ofKind .job) }

theorem deletion_clears_paired : paired.tree.WellFormed ∧ IsItemName "job" ∧
    paired.deleteFailures.lookup ["t", "job"] = none ∧ paired.deleteFailures.lookup ["t", "gone", "job"] = none ∧
    (∃ calls tree, paired.Yields (Scenario.execute inMemory ⟨["t"], by decide⟩ (.deleteJob "job")) (.ok none)
        ((paired.recordAll calls).withTree tree) ∧
      tree.get? ["t", "job"] = none ∧ tree.get? ["t", "job2"] = some (.ofKind .job)) ∧
    ∃ calls tree, paired.Yields (Scenario.execute inMemory ⟨["t", "gone"], by decide⟩ (.deleteJob "job"))
        (.error (.notFound "folder" "t/gone")) ((paired.recordAll calls).withTree tree) ∧
      tree.get? ["t", "job"] = some (.ofKind .job) := by
  have wf : paired.tree.WellFormed := by decide
  refine ⟨wf, by decide, by decide, by decide, ?_, ?_⟩
  · obtain ⟨x, calls, tree, htree, hok, -, hstep, -⟩ :=
      deletion_clears inMemory ⟨["t"], by decide⟩ wf (by decide : IsItemName "job") (by decide)
    obtain rfl : x = .ok () := hok.2 (by decide)
    exact ⟨calls, tree, hstep, (htree _).trans (by decide), (htree _).trans (by decide)⟩
  · obtain ⟨x, calls, tree, htree, hok, hblocks, hstep, -⟩ :=
      deletion_clears inMemory ⟨["t", "gone"], by decide⟩ wf (by decide : IsItemName "job") (by decide)
    cases x with
    | ok _ => exact absurd (hok.1 rfl ["t", "gone"] (by decide)) (by decide)
    | error e =>
      obtain ⟨q, hq, hfault, -⟩ := hblocks e rfl
      rcases List.mem_pair.1 (show q ∈ [["t"], ["t", "gone"]] from hq) with rfl | rfl
      · -- this one is a folder
        rcases hfault with ⟨hc, -⟩ | ⟨⟨node, hnode, hk⟩, -⟩
        · exact absurd hc (by decide)
        · cases (by decide : paired.tree.get? ["t"] = some (.ofKind .folder)).symm.trans hnode
          cases hk
      · rcases hfault with ⟨-, rfl⟩ | ⟨⟨node, hnode, -⟩, -⟩
        · exact ⟨calls, tree, hstep, (htree _).trans (by decide)⟩
        · cases (by decide : paired.tree.get? ["t", "gone"] = none).symm.trans hnode

/-- **Not every deletion of what is gone succeeds**: if the folder is gone too, the step and the command fail. -/
theorem not_every_deletion_tolerated :
    ¬ ∀ (connection : Connection) (s : Server) (folder : FolderPath) (name : String),
      s.tree.WellFormed → s.deleteFailures = [] → IsItemName name →
      (∃ detail s', s.Yields (Scenario.execute connection folder (.deleteJob name)) (.ok detail) s' ∧
        ∀ q, s'.tree.get? q = if folder.segments ++ [name] <+: q then none else s.tree.get? q) ∧
      ∀ display, ∃ text s',
        s.Gives ((CommandLine.Command.job (.delete name folder)).perform display connection).run (.ok text) s' ∧
        ∀ q, s'.tree.get? q = if folder.segments ++ [name] <+: q then none else s.tree.get? q := by
  intro h
  obtain ⟨⟨detail, s', hstep, -⟩, -⟩ := h inMemory .empty ⟨["teamA"], by decide⟩
    "build" (by decide) rfl (by decide)
  have hdelete : Server.empty.Yields (inMemory.server.deleteAt ⟨["teamA"], by decide⟩ "build")
      (.error (.notFound "folder" "teamA")) (Server.empty.recordAll [.getJob ["teamA"]]) :=
    JobServer.deleteAt_yields inMemory.server (by decide) (by decide) rfl
  cases (hstep.unique hdelete.deletions.1).1

end JobHierarchy
