import JobHierarchy.Proofs.Alterations
/-!
# The parts of a server

The first name of a path is the top-level item that it lies under, so the items of a server fall into parts,
one for each top-level item (`Tree.part`, `Server.part`). A request is answered by the part that its path lies
in: the part alone gives the same answer and changes in the same way (`Server.answer_part`), and every other
part stays as it is (`Server.answer_part_other`). It does not matter what names look like: `a` and `ab` are two
first names, and so are `a` and `a%2F`.
-/

namespace JobHierarchy.Memory

/-- The path lies at or below the top-level item `top`. -/
def ItemPath.Under (top : String) (path : ItemPath) : Prop := path.head? = some top

instance (top : String) (path : ItemPath) : Decidable (path.Under top) :=
  inferInstanceAs (Decidable (path.head? = some top))

namespace ItemPath

variable {top other : String} {path scope : ItemPath} {name : String}

theorem Under.append (h : path.Under top) (rest : ItemPath) : Under top (path ++ rest) := by
  rw [Under, List.head?_append, h, Option.some_or]

theorem Under.eq (h : path.Under top) (h' : path.Under other) : top = other :=
  Option.some.inj (h.symm.trans h')

theorem under_of_prefix (h : path.Under top) {q : ItemPath} (hpre : path <+: q) : q.Under top := by
  obtain ⟨rest, rfl⟩ := hpre
  exact h.append rest

theorem Under.of_prefix (h : path.Under top) {above : ItemPath} (hpre : above <+: path) (hne : above ≠ []) :
    above.Under top := by
  obtain ⟨rest, rfl⟩ := hpre
  rwa [Under, List.head?_append_of_ne_nil _ hne] at h

/-- A scope is the top level or lies where the items in it lie. -/
theorem scope_under (h : (scope.item name).Under top) : scope = [] ∨ scope.Under top := by
  cases scope with
  | nil => exact .inl rfl
  | cons first rest => exact .inr h

end ItemPath

/-! ## Parts of a tree -/

namespace Tree

variable {top other : String} {tree tree' : Tree} {path q : ItemPath}

/-- The items at or below the top-level item `top`. -/
def part (tree : Tree) (top : String) : Tree :=
  ⟨tree.entries.filter fun e => decide (e.1.Under top), tree.ascending.filter _⟩

theorem get?_part (tree : Tree) (top : String) (q : ItemPath) :
    (tree.part top).get? q = if q.Under top then tree.get? q else none := by
  have h := lookup_keepKeys (fun k => decide (k.Under top)) q tree.entries
  unfold get? part
  rw [h]
  by_cases hq : q.Under top <;> simp [hq]

theorem get?_part_of_under (h : q.Under top) : (tree.part top).get? q = tree.get? q := by
  rw [get?_part, if_pos h]

theorem contains_part (h : q.Under top) : (tree.part top).contains q = tree.contains q := by
  rw [contains, get?_part_of_under h, contains]

theorem part_insert (h : path.Under top) (node : Node) :
    (tree.insert path node).part top = (tree.part top).insert path node := by
  refine ext fun q => ?_
  rw [get?_part, get?_insert, get?_insert, get?_part]
  by_cases hq : q = path
  · rw [hq, if_pos h, if_pos rfl, if_pos rfl]
  · rw [if_neg hq, if_neg hq]

theorem part_insert_other (h : path.Under top) (hne : other ≠ top) (node : Node) :
    (tree.insert path node).part other = tree.part other := by
  refine ext fun q => ?_
  rw [get?_part, get?_part]
  by_cases hq : q.Under other
  · have hqp : q ≠ path := fun e => hne (hq.eq (e ▸ h))
    rw [if_pos hq, if_pos hq, get?_insert_ne _ _ hqp]
  · rw [if_neg hq, if_neg hq]

theorem part_eraseBelow (tree : Tree) (path : ItemPath) (top : String) :
    (tree.eraseBelow path).part top = (tree.part top).eraseBelow path := by
  refine ext fun q => ?_
  rw [get?_part, get?_eraseBelow, get?_eraseBelow, get?_part]
  by_cases hq : q.Under top <;> simp [hq]

theorem part_eraseBelow_other (h : path.Under top) (hne : other ≠ top) :
    (tree.eraseBelow path).part other = tree.part other := by
  refine ext fun q => ?_
  rw [get?_part, get?_part]
  by_cases hq : q.Under other
  · have hno : ¬ path <+: q := fun hpre => hne (hq.eq (ItemPath.under_of_prefix h hpre))
    rw [if_pos hq, if_pos hq, get?_eraseBelow, if_neg hno]
  · rw [if_neg hq, if_neg hq]

theorem children_part (h : path.Under top) : (tree.part top).children path = tree.children path := by
  rw [children, children, part, List.filterMap_filter]
  refine List.filterMap_congr fun e _ => ?_
  by_cases he : e.1.Under top
  · rw [if_pos (decide_eq_true he)]
  · rw [if_neg (by simpa using he), eq_comm, Option.eq_none_iff_forall_ne_some]
    intro name hname
    rw [childName?_eq_some_iff.1 hname] at he
    exact he (h.append [name])

/-- Well-formed trees with the same parts are the same. -/
theorem ext_part (wf : tree.WellFormed) (wf' : tree'.WellFormed) (h : ∀ top, tree.part top = tree'.part top) :
    tree = tree' := by
  have hnil : ∀ t : Tree, t.WellFormed → t.get? [] = none := fun t wf =>
    contains_eq_false_iff.1 (Bool.eq_false_iff.2 fun hc => wf.ne_nil [] hc rfl)
  refine ext fun q => ?_
  cases q with
  | nil => rw [hnil tree wf, hnil tree' wf']
  | cons top rest =>
    have hunder : ItemPath.Under top (top :: rest) := rfl
    rw [← get?_part_of_under hunder, h, get?_part_of_under hunder]

end Tree

/-! ## Parts of a server -/

namespace Server

variable {top other : String} {s : Server} {path scope : ItemPath} {name : String} {r : Request}

/-- What a server knows about the items at or below `top`. Failures are settings and stay whole; the record
of requests is left out. -/
def part (s : Server) (top : String) : Server :=
  { s with
    tree := s.tree.part top
    calls := #[]
    racing := s.racing.filter fun q => decide (q.Under top) }

theorem record_part (s : Server) (call : Call) (top : String) : (s.record call).part top = s.part top := rfl

theorem node_part (h : path.Under top) : (s.part top).node path = s.node path := by
  unfold Server.node
  rw [part, Tree.get?_part_of_under h]

theorem checkScope_part (h : scope = [] ∨ scope.Under top) : (s.part top).checkScope scope = s.checkScope scope := by
  rcases h with rfl | h
  · rfl
  · unfold checkScope
    rw [part, Tree.get?_part_of_under h]

theorem insertItem_part (h : (scope.item name).Under top) (node : Node) :
    (s.part top).insertItem scope name node = (s.insertItem scope name node).map fun tree => tree.part top := by
  unfold insertItem
  rw [checkScope_part (ItemPath.scope_under h)]
  cases s.checkScope scope with
  | error e => rfl
  | ok _ =>
    have hc : (s.part top).tree.contains (scope.item name) = s.tree.contains (scope.item name) :=
      Tree.contains_part h
    have hins : (s.tree.insert (scope.item name) node).part top = (s.tree.part top).insert (scope.item name) node :=
      Tree.part_insert h node
    simp only [bind, Except.bind, hc]
    split
    · rfl
    · exact congrArg Except.ok hins.symm

theorem result_part (h : path.Under top) (number : Nat) : (s.part top).result path number = s.result path number := by
  unfold result
  rw [node_part h]

theorem deleteJob_part (h : path.Under top) :
    (s.part top).deleteJob path = (s.deleteJob path).map fun tree => tree.part top := by
  have hf : (s.part top).deleteFailures = s.deleteFailures := rfl
  unfold deleteJob
  rw [node_part h, hf]
  cases s.deleteFailures.lookup path with
  | some status => rfl
  | none =>
    cases s.node path with
    | error e => rfl
    | ok node => exact congrArg Except.ok (Tree.part_eraseBelow s.tree path top).symm

theorem triggerBuild_part (h : path.Under top) :
    (s.part top).triggerBuild path = (s.triggerBuild path).map fun tree => tree.part top := by
  unfold triggerBuild
  rw [node_part h]
  cases s.node path with
  | error e => rfl
  | ok node =>
    simp only [bind, Except.bind]
    split
    · rfl
    · exact congrArg Except.ok (Tree.part_insert h _).symm

theorem stopBuild_part (h : path.Under top) (number : Nat) :
    (s.part top).stopBuild path number = (s.stopBuild path number).map fun tree => tree.part top := by
  unfold stopBuild withResult
  rw [result_part h, node_part h]
  cases s.result path number with
  | error e => rfl
  | ok result =>
    cases result with
    | some _ => rfl
    | none =>
      cases s.node path with
      | error e => rfl
      | ok node =>
        simp only [bind, Except.bind]
        split
        · exact congrArg Except.ok (Tree.part_insert h _).symm
        · rfl

theorem folderView_part (h : path.Under top) : (s.part top).folderView path = s.folderView path := by
  have hchildren : (s.part top).tree.children path = s.tree.children path := Tree.children_part h
  unfold folderView
  rw [node_part h, hchildren]

theorem listBuilds_part (h : path.Under top) : (s.part top).listBuilds path = s.listBuilds path := by
  have hf : (s.part top).listingFailures = s.listingFailures := rfl
  unfold listBuilds
  rw [node_part h, hf]

theorem changed_part {x x' : Except Error Tree} (h : x' = x.map fun tree => tree.part top) :
    (s.part top).changed x' = ((s.changed x).1, (s.changed x).2.part top) := by
  subst h
  cases x <;> rfl

theorem withoutRace_part (s : Server) (path : ItemPath) (top : String) :
    (s.part top).withoutRace path = (s.withoutRace path).part top := by
  simp only [part, withoutRace, List.filter_filter, Bool.and_comm]

/-- A folder is made on the server without races about it. -/
theorem submitFolder_eq (s : Server) (scope : ItemPath) (name : String) : s.submitFolder scope name =
    match s.folderFailures.lookup (scope.item name) with
    | some status => (.error (.transport (some status) ("cannot create " ++ (scope.item name).display)), s)
    | none =>
      match (s.withoutRace (scope.item name)).insertItem scope name (.ofKind .folder) with
      | .error e => (.error e, s.withoutRace (scope.item name))
      | .ok tree =>
        (if s.racing.contains (scope.item name) then .error (nameTaken name) else .ok (),
          (s.withoutRace (scope.item name)).withTree tree) := rfl

theorem submitFolder_part (h : (scope.item name).Under top) :
    (s.part top).submitFolder scope name = ((s.submitFolder scope name).1, (s.submitFolder scope name).2.part top) := by
  have hf : (s.part top).folderFailures = s.folderFailures := rfl
  have hraced : (s.part top).racing.contains (scope.item name) = s.racing.contains (scope.item name) := by
    simp [part, h]
  rw [submitFolder_eq, submitFolder_eq, hf, hraced, withoutRace_part, insertItem_part h]
  cases s.folderFailures.lookup (scope.item name) with
  | some status => rfl
  | none => cases (s.withoutRace (scope.item name)).insertItem scope name (.ofKind .folder) <;> rfl

/-- **A request is answered by the part that it is about**, and changes that part as it stands. -/
theorem answer_part (s : Server) (r : Request) (h : (callOf r).path.Under top) :
    (s.part top).answer r = ((s.answer r).1, (s.answer r).2.part top) := by
  cases r with
  | getJob scope name =>
    have hc : (s.part top).tree.contains ((scopePath scope).item name) = s.tree.contains ((scopePath scope).item name) :=
      Tree.contains_part h
    simp only [answer, getJob, hc]
  | folderView job => exact congrArg (fun x => (x, s.part top)) (folderView_part h)
  | createJob scope name definition => exact changed_part (insertItem_part h _)
  | deleteJob scope name => exact changed_part (deleteJob_part h)
  | triggerBuild job => exact changed_part (triggerBuild_part h)
  | listBuilds job => exact congrArg (fun x => (x, s.part top)) (listBuilds_part h)
  | buildResult build => exact congrArg (fun x => (x, s.part top)) (result_part h build.number)
  | stopBuild build => exact changed_part (stopBuild_part h build.number)
  | submitFolder target name definition credentials => exact submitFolder_part h

theorem changed_part_other {x : Except Error Tree} (h : ∀ tree, x = .ok tree → tree.part other = s.tree.part other) :
    (s.changed x).2.part other = s.part other := by
  cases x with
  | error e => rfl
  | ok tree => simp only [changed, part, h tree rfl]

/-- A race in one part is no race of another. -/
theorem withoutRace_part_other (h : path.Under top) (hne : other ≠ top) :
    (s.withoutRace path).part other = s.part other := by
  have hkept : ∀ q ∈ s.racing.filter (fun q => decide (q.Under other)), (q != path) = true := by
    intro q hq
    have hq : q.Under other := of_decide_eq_true (List.mem_filter.1 hq).2
    have hqp : q ≠ path := fun e => hne (hq.eq (e ▸ h))
    simpa using hqp
  have hracing := List.filter_eq_self.2 hkept
  rw [← withoutRace_part]
  simp only [withoutRace, part, hracing]

theorem submitFolder_part_other (h : (scope.item name).Under top) (hne : other ≠ top) :
    (s.submitFolder scope name).2.part other = s.part other := by
  have hraced := withoutRace_part_other (s := s) h hne
  rw [submitFolder_eq]
  cases s.folderFailures.lookup (scope.item name) with
  | some status => rfl
  | none =>
    cases hins : (s.withoutRace (scope.item name)).insertItem scope name (.ofKind .folder) with
    | error e => exact hraced
    | ok tree =>
      obtain ⟨-, -, rfl⟩ := insertItem_eq_ok hins
      have hinsert : ((s.withoutRace (scope.item name)).tree.insert (scope.item name) (.ofKind .folder)).part other =
          (s.withoutRace (scope.item name)).tree.part other := Tree.part_insert_other h hne _
      rw [← hraced]
      exact congrArg (((s.withoutRace (scope.item name)).part other).withTree) hinsert

/-- **No other part changes.** -/
theorem answer_part_other (s : Server) (r : Request) (h : (callOf r).path.Under top) (hne : other ≠ top) :
    (s.answer r).2.part other = s.part other := by
  cases r with
  | getJob scope name => rfl
  | folderView job => rfl
  | listBuilds job => rfl
  | buildResult build => rfl
  | createJob scope name definition =>
    refine changed_part_other fun tree htree => ?_
    obtain ⟨-, -, rfl⟩ := insertItem_eq_ok htree
    exact Tree.part_insert_other h hne _
  | deleteJob scope name =>
    refine changed_part_other fun tree htree => ?_
    obtain ⟨-, rfl⟩ := deleteJob_eq_ok htree
    exact Tree.part_eraseBelow_other h hne
  | triggerBuild job =>
    refine changed_part_other fun tree htree => ?_
    obtain ⟨node, -, -, rfl⟩ := triggerBuild_eq_ok htree
    exact Tree.part_insert_other h hne _
  | stopBuild build =>
    refine changed_part_other fun tree htree => ?_
    obtain rfl | ⟨node, -, -, rfl⟩ := stopBuild_eq_ok htree
    · rfl
    · exact Tree.part_insert_other h hne _
  | submitFolder target name definition credentials => exact submitFolder_part_other h hne

end Server

end JobHierarchy.Memory
