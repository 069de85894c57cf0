import JobHierarchy.Memory.Tree
import JobHierarchy.Proofs.Basics
import Mathlib.Data.List.Sort
/-!
# Laws of trees

A tree is known by its look-ups: what each operation does to `get?` says all there is to say about it
(`Tree.ext`). The paths of a tree are in ascending order, so an item stands before what is in it and
the items in one scope come out by name.
-/

namespace JobHierarchy.Memory

/-! ## The order of paths -/

theorem ItemPath.append_lt_append {above p q : ItemPath} : above ++ p < above ++ q ↔ p < q := by
  induction above with
  | nil => rfl
  | cons name above ih => rw [List.cons_append, List.cons_append, List.cons_lt_cons_self, ih]

theorem ItemPath.singleton_append_lt {a b : String} (h : a < b) (p q : ItemPath) : [a] ++ p < [b] ++ q :=
  List.cons_lt_cons_iff.2 (.inl h)

theorem ItemPath.lt_append_singleton (path : ItemPath) (name : String) (p : ItemPath) :
    path < path ++ name :: p := by
  have h : path ++ [] < path ++ name :: p := append_lt_append.2 (List.nil_lt_cons name p)
  rwa [List.append_nil] at h

/-- Two ascending lists of paths with the same members are the same list. -/
theorem ItemPath.eq_of_mem_iff {l l' : List ItemPath} (h : l.Pairwise (· < ·)) (h' : l'.Pairwise (· < ·))
    (hm : ∀ path, path ∈ l ↔ path ∈ l') : l = l' := by
  have : Std.Antisymm fun a b : ItemPath => a < b :=
    ⟨fun a b hab hba => absurd (List.lt_trans hab hba) (List.lt_irrefl a)⟩
  have : Std.Irrefl fun a b : ItemPath => a < b := ⟨List.lt_irrefl⟩
  exact h.eq_of_mem_iff h' hm

/-! ## Look-ups in entries -/

theorem lookup_insertEntry (key q : ItemPath) (node : Node) :
    ∀ entries : List (ItemPath × Node), (insertEntry key node entries).lookup q =
      if q = key then some node else entries.lookup q
  | [] => by
    by_cases h : q = key
    · simp [insertEntry, h]
    · rw [insertEntry, lookup_cons_of_ne h, if_neg h]
  | (k, n) :: rest => by
    have ih := lookup_insertEntry key q node rest
    by_cases h : q = key
    · subst h
      rw [if_pos rfl] at ih ⊢
      simp only [insertEntry]
      split
      · rw [List.lookup_cons_self]
      · split
        · next hgt =>
          have hne : q ≠ k := fun e => List.lt_irrefl k (e ▸ hgt)
          rw [lookup_cons_of_ne hne, ih]
        · rw [List.lookup_cons_self]
    · rw [if_neg h] at ih ⊢
      simp only [insertEntry]
      split
      · rw [lookup_cons_of_ne h]
      · next hnlt =>
        split
        · by_cases hk : q = k
          · rw [hk, List.lookup_cons_self, List.lookup_cons_self]
          · rw [lookup_cons_of_ne hk, lookup_cons_of_ne hk, ih]
        · next hngt =>
          have hk : k = key := List.le_antisymm hnlt hngt
          rw [lookup_cons_of_ne h, lookup_cons_of_ne (hk ▸ h)]

/-- Where no key occurs twice, an entry is what its key looks up. -/
theorem lookup_eq_some_iff_mem {q : ItemPath} {node : Node} {entries : List (ItemPath × Node)}
    (h : entries.Pairwise fun a b => a.1 < b.1) : entries.lookup q = some node ↔ (q, node) ∈ entries := by
  induction entries with
  | nil => simp
  | cons e rest ih =>
    obtain ⟨k, n⟩ := e
    obtain ⟨hk, hrest⟩ := List.pairwise_cons.1 h
    by_cases hq : q = k
    · subst hq
      have hno : (q, node) ∉ rest := fun hm => List.lt_irrefl q (hk _ hm)
      rw [List.lookup_cons_self, List.mem_cons, or_iff_left hno]
      simp [eq_comm]
    · have hno : (q, node) ≠ (k, n) := fun e => hq (congrArg Prod.fst e)
      rw [List.mem_cons, or_iff_right hno, ← ih hrest, lookup_cons_of_ne hq]

namespace Tree

/-! ## Look-ups after each operation -/

@[simp] theorem get?_empty (q : ItemPath) : empty.get? q = none := rfl

theorem get?_insert (tree : Tree) (path q : ItemPath) (node : Node) :
    (tree.insert path node).get? q = if q = path then some node else tree.get? q :=
  lookup_insertEntry path q node tree.entries

@[simp] theorem get?_insert_self (tree : Tree) (path : ItemPath) (node : Node) :
    (tree.insert path node).get? path = some node := by
  rw [get?_insert, if_pos rfl]

theorem get?_insert_ne (tree : Tree) {path q : ItemPath} (node : Node) (h : q ≠ path) :
    (tree.insert path node).get? q = tree.get? q := by
  rw [get?_insert, if_neg h]

theorem get?_eraseBelow (tree : Tree) (path q : ItemPath) :
    (tree.eraseBelow path).get? q = if path <+: q then none else tree.get? q := by
  have h := lookup_keepKeys (fun k => decide ¬ path.isPrefixOf k) q tree.entries
  unfold get? eraseBelow
  rw [h]
  by_cases hp : path <+: q <;> simp [hp]

theorem contains_iff {tree : Tree} {path : ItemPath} :
    tree.contains path = true ↔ ∃ node, tree.get? path = some node := Option.isSome_iff_exists

theorem contains_eq_false_iff {tree : Tree} {path : ItemPath} :
    tree.contains path = false ↔ tree.get? path = none := Option.isSome_eq_false_iff.trans Option.isNone_iff_eq_none

theorem get?_eq_some_iff {tree : Tree} {path : ItemPath} {node : Node} :
    tree.get? path = some node ↔ (path, node) ∈ tree.entries := lookup_eq_some_iff_mem tree.ascending

/-- **Trees that answer every look-up alike are the same.** -/
theorem ext {tree tree' : Tree} (h : ∀ path, tree.get? path = tree'.get? path) : tree = tree' := by
  have : Std.Antisymm fun a b : ItemPath × Node => a.1 < b.1 :=
    ⟨fun a b hab hba => absurd (List.lt_trans hab hba) (List.lt_irrefl a.1)⟩
  have : Std.Irrefl fun a b : ItemPath × Node => a.1 < b.1 := ⟨fun a => List.lt_irrefl a.1⟩
  have he : tree.entries = tree'.entries := by
    refine tree.ascending.eq_of_mem_iff tree'.ascending fun ⟨q, node⟩ => ?_
    rw [← get?_eq_some_iff, h, get?_eq_some_iff]
  cases tree
  cases tree'
  cases he
  rfl

/-- Putting back what is there changes nothing. -/
theorem insert_get? {tree : Tree} {path : ItemPath} {node : Node} (h : tree.get? path = some node) :
    tree.insert path node = tree := by
  refine ext fun q => ?_
  rw [get?_insert]
  by_cases hq : q = path
  · rw [if_pos hq, hq, h]
  · rw [if_neg hq]

theorem insert_insert (tree : Tree) (path : ItemPath) (node node' : Node) :
    (tree.insert path node).insert path node' = tree.insert path node' := by
  refine ext fun q => ?_
  by_cases hq : q = path <;> simp [get?_insert, hq]

/-! ## Paths in order -/

/-- The paths of the items, in ascending order. -/
def keys (tree : Tree) : List ItemPath := tree.entries.map (·.1)

theorem keys_pairwise (tree : Tree) : tree.keys.Pairwise (· < ·) := List.pairwise_map.2 tree.ascending

theorem mem_keys {tree : Tree} {path : ItemPath} : path ∈ tree.keys ↔ tree.contains path = true := by
  rw [contains_iff, keys, List.mem_map]
  constructor
  · rintro ⟨⟨k, n⟩, he, rfl⟩
    exact ⟨n, get?_eq_some_iff.2 he⟩
  · rintro ⟨node, hn⟩
    exact ⟨(path, node), get?_eq_some_iff.1 hn, rfl⟩

theorem keys_congr {tree tree' : Tree} (h : ∀ path, tree.contains path = tree'.contains path) :
    tree.keys = tree'.keys :=
  ItemPath.eq_of_mem_iff tree.keys_pairwise tree'.keys_pairwise fun path => by rw [mem_keys, mem_keys, h]

/-! ## Children -/

theorem childName?_eq_some_iff : ∀ {path deeper : ItemPath} {name : String},
    childName? path deeper = some name ↔ deeper = path ++ [name]
  | [], [], _ => by simp [childName?]
  | [], [n], name => by simp [childName?]
  | [], _ :: _ :: _, _ => by simp [childName?]
  | _ :: _, [], _ => by simp [childName?]
  | p :: path, d :: deeper, name => by
    rw [childName?]
    by_cases h : p = d
    · rw [if_pos h, childName?_eq_some_iff, h, List.cons_append, List.cons_inj_right]
    · rw [if_neg h]
      simp [Ne.symm h]

theorem mem_children {tree : Tree} {path : ItemPath} {name : String} :
    name ∈ tree.children path ↔ tree.contains (path ++ [name]) = true := by
  rw [← mem_keys, keys, children, List.mem_filterMap, List.mem_map]
  simp only [childName?_eq_some_iff]

theorem children_eq (tree : Tree) (path : ItemPath) : tree.children path = tree.keys.filterMap (childName? path) := by
  rw [children, keys, List.filterMap_map]
  rfl

/-- The items in an item come out by name, none of them twice. -/
theorem children_pairwise (tree : Tree) (path : ItemPath) : (tree.children path).Pairwise (· < ·) := by
  rw [children_eq, List.pairwise_filterMap]
  refine tree.keys_pairwise.imp fun {p q} hpq a ha b hb => ?_
  rw [childName?_eq_some_iff.1 ha, childName?_eq_some_iff.1 hb, ItemPath.append_lt_append] at hpq
  simpa [List.cons_lt_cons_iff] using hpq

theorem children_congr {tree tree' : Tree} (h : ∀ path, tree.contains path = tree'.contains path)
    (path : ItemPath) : tree.children path = tree'.children path := by
  rw [children_eq, children_eq, keys_congr h]

end Tree

end JobHierarchy.Memory
