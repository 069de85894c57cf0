import JobHierarchy.Proofs.Hierarchy
/-!
# Pre-order

`Tree.preorder` walks a subtree: an item first, then the subtrees of the items in it, by name. In a
well-formed tree that is the list of all items at or below the path, in ascending order of their paths
(`Tree.preorder_eq_within`), so no item is missed and none comes twice.
-/

namespace JobHierarchy.Memory.Tree

variable {tree tree' : Tree}

/-- The paths of the items at or below `path`, in ascending order. -/
def within (tree : Tree) (path : ItemPath) : List ItemPath := tree.keys.filter (path.isPrefixOf ·)

theorem mem_within {path q : ItemPath} : q ∈ tree.within path ↔ tree.contains q = true ∧ path <+: q := by
  rw [within, List.mem_filter, mem_keys, List.isPrefixOf_iff_prefix]

theorem within_pairwise (tree : Tree) (path : ItemPath) : (tree.within path).Pairwise (· < ·) :=
  tree.keys_pairwise.filter _

theorem within_nodup (tree : Tree) (path : ItemPath) : (tree.within path).Nodup := by
  refine (tree.within_pairwise path).imp fun {p q} h => ?_
  rintro rfl
  exact List.lt_irrefl p h

theorem length_within_le (tree : Tree) (path : ItemPath) : (tree.within path).length ≤ tree.size := by
  have h := List.length_filter_le (path.isPrefixOf ·) tree.keys
  rwa [keys, List.length_map] at h

/-- One name further there is at least one item fewer. -/
theorem length_within_child_lt {path : ItemPath} (h : tree.contains path = true) (name : String) :
    (tree.within (path ++ [name])).length < (tree.within path).length := by
  have hsub : (path :: tree.within (path ++ [name])).Subperm (tree.within path) := by
    refine List.subperm_of_subset (List.nodup_cons.2 ⟨fun hm => ?_, tree.within_nodup _⟩) fun q hq => ?_
    · exact path.not_item_prefix name (mem_within.1 hm).2
    · rcases List.mem_cons.1 hq with rfl | hq
      · exact mem_within.2 ⟨h, List.prefix_rfl⟩
      · obtain ⟨hc, hp⟩ := mem_within.1 hq
        exact mem_within.2 ⟨hc, (List.prefix_append _ _).trans hp⟩
  exact hsub.length_le

/-- **Pre-order**: an item, and then what is in each item in it, by name. -/
def preorder (tree : Tree) (path : ItemPath) : List ItemPath :=
  if h : tree.contains path = true then
    path :: (tree.children path).flatMap fun name => tree.preorder (path ++ [name])
  else []
termination_by (tree.within path).length
decreasing_by exact length_within_child_lt h name

/-! ## Pre-order is ascending order -/

/-- The items below an item, sorted by the first name on the way to them. -/
theorem mem_flatMap_within {path q : ItemPath} (wf : tree.WellFormed) :
    (q ∈ (tree.children path).flatMap fun name => tree.within (path ++ [name])) ↔
      tree.contains q = true ∧ path <+: q ∧ q ≠ path := by
  rw [List.mem_flatMap]
  constructor
  · rintro ⟨name, -, hq⟩
    obtain ⟨hc, hp⟩ := mem_within.1 hq
    exact ⟨hc, (List.prefix_append _ _).trans hp, fun e => path.not_item_prefix name (e ▸ hp)⟩
  · rintro ⟨hc, ⟨rest, rfl⟩, hne⟩
    cases rest with
    | nil => exact absurd (List.append_nil path) hne
    | cons name rest =>
      have hpre : path ++ [name] <+: path ++ name :: rest := by
        rw [List.prefix_append_right_inj]
        exact ⟨rest, rfl⟩
      exact ⟨name, mem_children.2 (wf.contains_of_prefix (by simp) hpre hc), mem_within.2 ⟨hc, hpre⟩⟩

/-- The subtrees of items with different names do not mix. -/
theorem flatMap_within_pairwise (tree : Tree) (path : ItemPath) :
    ((tree.children path).flatMap fun name => tree.within (path ++ [name])).Pairwise (· < ·) := by
  rw [List.pairwise_flatMap]
  refine ⟨fun name _ => tree.within_pairwise _, (tree.children_pairwise path).imp fun {a b} hab p hp q hq => ?_⟩
  obtain ⟨p', rfl⟩ := (mem_within.1 hp).2
  obtain ⟨q', rfl⟩ := (mem_within.1 hq).2
  rw [List.append_assoc, List.append_assoc, ItemPath.append_lt_append]
  exact ItemPath.singleton_append_lt hab p' q'

theorem within_eq_cons (wf : tree.WellFormed) {path : ItemPath} (h : tree.contains path = true) :
    tree.within path = path :: (tree.children path).flatMap fun name => tree.within (path ++ [name]) := by
  refine ItemPath.eq_of_mem_iff (tree.within_pairwise path)
    (List.pairwise_cons.2 ⟨fun q hq => ?_, tree.flatMap_within_pairwise path⟩) fun q => ?_
  · obtain ⟨-, ⟨rest, rfl⟩, hne⟩ := (mem_flatMap_within wf).1 hq
    cases rest with
    | nil => exact absurd (List.append_nil path) hne
    | cons name rest => exact ItemPath.lt_append_singleton path name rest
  · rw [mem_within, List.mem_cons, mem_flatMap_within wf]
    constructor
    · rintro ⟨hc, hp⟩
      by_cases hq : q = path
      · exact .inl hq
      · exact .inr ⟨hc, hp, hq⟩
    · rintro (rfl | ⟨hc, hp, -⟩)
      · exact ⟨h, List.prefix_rfl⟩
      · exact ⟨hc, hp⟩

/-- **The walk visits every item of a subtree once, in ascending order of the paths.** -/
theorem preorder_eq_within (wf : tree.WellFormed) (path : ItemPath) (hp : path ≠ []) :
    tree.preorder path = tree.within path := by
  -- on the size of the subtree, as in the definition
  induction hn : (tree.within path).length using Nat.strongRecOn generalizing path with
  | ind n ih =>
    rw [preorder]
    by_cases h : tree.contains path = true
    · rw [dif_pos h, within_eq_cons wf h]
      congr 1
      refine List.flatMap_congr fun name _ => ?_
      exact ih _ (hn ▸ length_within_child_lt h name) _ (by simp) rfl
    · rw [dif_neg h, eq_comm, List.eq_nil_iff_forall_not_mem]
      intro q hq
      obtain ⟨hc, hpre⟩ := mem_within.1 hq
      exact h (wf.contains_of_prefix hp hpre hc)

theorem within_congr (h : ∀ path, tree.contains path = tree'.contains path) (path : ItemPath) :
    tree.within path = tree'.within path := by
  rw [within, within, keys_congr h]

end JobHierarchy.Memory.Tree
