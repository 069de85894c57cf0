import JobHierarchy.Proofs.Lookups
import JobHierarchy.Proofs.Running
/-!
# One visit

At each item the walk that stops builds does the same: it finds the item, stops those of the builds listed
that run, and learns what is in the item (`JobServer.visit`). A visit fails where the item is not found or its
builds cannot be listed. Otherwise it leaves the tree with the same paths, and what is in the item comes next
(`JobServer.visit_yields`).
-/

namespace JobHierarchy

theorem FolderPath.append_eq {folder deeper : FolderPath} {name : String} (hn : IsItemName name)
    (h : deeper.segments = folder.segments ++ [name]) : folder.append name = .ok deeper := by
  rw [append, dif_pos hn]
  cases deeper
  subst h
  rfl

namespace JobServer

open Memory Memory.Server

/-- A visit to one item: how many builds were stopped there, and the items in it. -/
def visit (server : JobServer) (folder : FolderPath) (name : String) :
    Operation (Nat × List (FolderPath × String)) := do
  let job ← server.findJob folder name
  let builds ← Operation.ask (.listBuilds job)
  let here ← stopRunning (folder.displayItem name) builds
  let inside ← match ← Operation.ask (.folderView job) with
    | none => pure []
    | some view => do
      let scope ← Operation.ofExcept (folder.append name)
      pure (view.jobs.map fun child => (scope, child))
  return (here, inside)

/-- The walk is a row of visits. -/
theorem abortPending_succ (server : JobServer) (fuel : Nat) (folder : FolderPath) (name : String)
    (pending : List (FolderPath × String)) :
    server.abortPending (fuel + 1) ((folder, name) :: pending) = do
      let (here, inside) ← server.visit folder name
      return here + (← server.abortPending fuel (inside ++ pending)) := by
  simp only [abortPending, visit, bind_assoc, pure_bind]
  refine bind_congr fun job => bind_congr fun builds => bind_congr fun here => bind_congr fun view => ?_
  cases view <;> simp only [bind_assoc, pure_bind]

variable {server : JobServer} {s : Server} {folder : FolderPath} {name : String} {node : Node}

/-! ## What a visit comes to -/

/-- An item whose builds are listed. -/
theorem visit_listed (server : JobServer) (deeper : FolderPath) (wf : s.tree.WellFormed) (hn : IsItemName name)
    (hdeeper : deeper.segments = folder.segments ++ [name]) (h : s.tree.get? (folder.segments ++ [name]) = some node)
    (hf : s.listingFailures.lookup (folder.segments ++ [name]) = none) :
    s.Yields (server.visit folder name)
      (.ok ((node.listed.filter node.runs).length,
        (s.tree.children (folder.segments ++ [name])).map fun child => (deeper, child)))
      ((s.recordAll (findCalls folder name ++ [.listBuilds (folder.segments ++ [name])] ++
        node.listed.flatMap (stopCalls (folder.segments ++ [name]) node) ++
        [.folderView (folder.segments ++ [name])])).withNode (folder.segments ++ [name])
          (node.stopAmong node.listed)) := by
  have hc : s.tree.contains (folder.segments ++ [name]) = true := Tree.contains_iff.2 ⟨node, h⟩
  have hjob := findJob_yields server hn (fun q hq => wf.holds_of_mem_downFrom hc hq) hc
  have hlist := (s.recordAll (findCalls folder name)).yields_listed folder.named hn h hf
  rw [recordAll_recordAll] at hlist
  have hstop := stopRunning_yields (folder.displayItem name) (wf.named _ hc)
    (s := s.recordAll (findCalls folder name ++ [.listBuilds (folder.segments ++ [name])])) h node.listed_nodup
    fun _ hm => Node.mem_numbers_of_mem_listed hm
  rw [recordAll_recordAll] at hstop
  generalize hs₁ : (s.recordAll (findCalls folder name ++ [.listBuilds (folder.segments ++ [name])] ++
    node.listed.flatMap (stopCalls (folder.segments ++ [name]) node))).withNode
      (folder.segments ++ [name]) (node.stopAmong node.listed) = s₁ at hstop
  have hnode₁ : s₁.tree.get? (folder.segments ++ [name]) = some (node.stopAmong node.listed) := by
    rw [← hs₁]
    exact Tree.get?_insert_self _ _ _
  have hchildren : s₁.tree.children (folder.segments ++ [name]) = s.tree.children (folder.segments ++ [name]) := by
    rw [← hs₁]
    exact Tree.children_congr (Tree.contains_insert_of_get? h _) _
  have hview := s₁.yields_folderView folder.named hn
  rw [← recordAll_recordAll, ← recordAll_withNode, hs₁, visit]
  by_cases hk : node.kind = .job
  · rw [folderView_of_job hnode₁ hk] at hview
    rw [wf.children_of_job h hk]
    exact hjob.bind (hlist.bind (hstop.bind (hview.bind ((yields_pure _ _).bind (yields_pure _ _)))))
  · rw [folderView_of_holder hnode₁ hk, hchildren] at hview
    have happend := yields_ofExcept (s₁.recordAll [.folderView (folder.segments ++ [name])]) (folder.append name)
    nth_rewrite 2 [FolderPath.append_eq hn hdeeper] at happend
    exact hjob.bind (hlist.bind (hstop.bind (hview.bind (happend.bind ((yields_pure _ _).bind (yields_pure _ _))))))

/-- An item whose builds cannot be listed. -/
theorem visit_hidden (server : JobServer) {status : Nat} (wf : s.tree.WellFormed) (hn : IsItemName name)
    (hc : s.tree.contains (folder.segments ++ [name]) = true)
    (hf : s.listingFailures.lookup (folder.segments ++ [name]) = some status) :
    s.Yields (server.visit folder name)
      (.error (.transport (some status) ("cannot list builds of " ++ ItemPath.display (folder.segments ++ [name]))))
      (s.recordAll (findCalls folder name ++ [.listBuilds (folder.segments ++ [name])])) := by
  have hjob := findJob_yields server hn (fun q hq => wf.holds_of_mem_downFrom hc hq) hc
  have hlist := yields_listBuilds_failing (s := s.recordAll (findCalls folder name)) folder.named hn hf
  rw [recordAll_recordAll] at hlist
  rw [visit]
  exact hjob.bind (hlist.bind_error _)

/-- An item that is not there. -/
theorem visit_absent (server : JobServer) (hn : IsItemName name)
    (hc : s.tree.contains (folder.segments ++ [name]) = false) :
    ∃ kind shown, s.Yields (server.visit folder name) (.error (.notFound kind shown))
      (s.recordAll (s.tree.findJobCalls folder name)) := by
  obtain ⟨kind, shown, hfind⟩ := Tree.findJob_absent hc
  have hlook := findJob_looks server s folder hn
  rw [hfind] at hlook
  rw [visit]
  exact ⟨kind, shown, hlook.bind_error _⟩

end JobServer

end JobHierarchy
