import JobHierarchy.Proofs.Addresses
import JobHierarchy.Proofs.Trees
import Mathlib.Data.List.Infix
/-!
# Well-formed hierarchies

A hierarchy is well formed if every item has a path of item names and every item above it is one that
can hold items (`Tree.WellFormed`). Then nothing lies below an absent path or below a plain job, and
putting an item into a scope, changing an item in place and erasing a subtree all keep it so. Where items
may lie below plain jobs, there is still nothing below an absent path if the items above are all there
(`Tree.Closed`).
-/

namespace JobHierarchy.Memory

namespace ItemPath

/-! ## The way down a path -/

/-- The paths on the way from `above` down the given names: one name further each time. -/
def downFrom (above : ItemPath) : List String → List ItemPath
  | [] => []
  | name :: rest => (above ++ [name]) :: downFrom (above ++ [name]) rest

theorem mem_downFrom {q : ItemPath} : ∀ {above : ItemPath} {names : List String},
    q ∈ downFrom above names ↔ ∃ k, 0 < k ∧ k ≤ names.length ∧ q = above ++ names.take k
  | above, [] => by
    simp only [downFrom, List.not_mem_nil, List.length_nil, false_iff]
    rintro ⟨k, h0, hk, -⟩
    omega
  | above, name :: rest => by
    rw [downFrom, List.mem_cons, mem_downFrom]
    constructor
    · rintro (rfl | ⟨k, h0, hk, rfl⟩)
      · exact ⟨1, by omega, by simp, by simp⟩
      · exact ⟨k + 1, by omega, by simp; omega, by simp⟩
    · rintro ⟨k, h0, hk, rfl⟩
      obtain ⟨j, rfl⟩ : ∃ j, k = j + 1 := ⟨k - 1, by omega⟩
      by_cases hj : j = 0
      · subst hj; exact .inl (by simp)
      · exact .inr ⟨j, by omega, by simpa using hk, by simp⟩

theorem above_prefix_of_mem_downFrom {q above : ItemPath} {names : List String} (h : q ∈ downFrom above names) :
    above <+: q := by
  obtain ⟨k, -, -, rfl⟩ := mem_downFrom.1 h
  exact List.prefix_append above _

theorem ne_of_mem_downFrom {q above : ItemPath} {names : List String} (h : q ∈ downFrom above names) : q ≠ above := by
  obtain ⟨k, h0, hk, rfl⟩ := mem_downFrom.1 h
  intro e
  have : (names.take k).length = 0 := by rw [List.append_right_eq_self.1 e]; rfl
  rw [List.length_take] at this
  omega

/-- The way to what is in an item is longer than the way to the item. -/
theorem not_item_prefix (path : ItemPath) (name : String) : ¬ path ++ [name] <+: path := by
  intro h
  have hle := h.length_le
  rw [List.length_append, List.length_singleton] at hle
  omega

end ItemPath

end JobHierarchy.Memory

namespace JobHierarchy

/-- The non-empty prefixes of a folder path, shortest first: the folders on the way to it, and it. -/
def FolderPath.prefixes (path : FolderPath) : List Memory.ItemPath :=
  Memory.ItemPath.downFrom [] path.segments

theorem FolderPath.mem_prefixes {path : FolderPath} {q : Memory.ItemPath} :
    q ∈ path.prefixes ↔ q ≠ [] ∧ q <+: path.segments := by
  rw [prefixes, Memory.ItemPath.mem_downFrom]
  constructor
  · rintro ⟨k, h0, hk, rfl⟩
    refine ⟨fun e => ?_, List.take_prefix k _⟩
    have : (path.segments.take k).length = 0 := by rw [List.nil_append] at e; rw [e]; rfl
    rw [List.length_take] at this
    omega
  · rintro ⟨hq, hp⟩
    exact ⟨q.length, List.length_pos_iff.2 hq, hp.length_le, by rw [← List.prefix_iff_eq_take.1 hp]; rfl⟩

end JobHierarchy

namespace JobHierarchy.Memory.Tree

/-! ## Well-formed trees -/

/-- There is an item at `path` that can hold items. -/
def holds (tree : Tree) (path : ItemPath) : Bool :=
  match tree.get? path with
  | some node => node.kind != .job
  | none => false

theorem holds_iff {tree : Tree} {path : ItemPath} :
    tree.holds path = true ↔ ∃ node, tree.get? path = some node ∧ node.kind ≠ .job := by
  unfold holds
  cases h : tree.get? path with
  | none => simp
  | some node => simp

theorem holds_of_job {tree : Tree} {path : ItemPath} {node : Node} (h : tree.get? path = some node)
    (hk : node.kind = .job) : tree.holds path = false := by
  unfold holds
  rw [h]
  simp only [hk]
  rfl

theorem contains_of_holds {tree : Tree} {path : ItemPath} (h : tree.holds path = true) :
    tree.contains path = true := by
  obtain ⟨node, hn, -⟩ := holds_iff.1 h
  exact contains_iff.2 ⟨node, hn⟩

/-- Every item has a path of item names, and each item properly above it can hold items. -/
structure WellFormed (tree : Tree) : Prop where
  ne_nil : ∀ path, tree.contains path = true → path ≠ []
  named : ∀ path, tree.contains path = true → path.Named
  above : ∀ path, tree.contains path = true → ∀ above, above <+: path → above ≠ [] → above ≠ path →
    tree.holds above = true

instance (tree : Tree) : Decidable tree.WellFormed :=
  decidable_of_iff
    (∀ path ∈ tree.keys, path ≠ [] ∧ path.Named ∧
      ∀ k < path.length, k ≠ 0 → tree.holds (path.take k) = true) <| by
    constructor
    · intro h
      refine ⟨fun p hp => (h p (mem_keys.2 hp)).1, fun p hp => (h p (mem_keys.2 hp)).2.1, ?_⟩
      intro path hp above hpre hne hneq
      have hlen : above.length < path.length :=
        Nat.lt_of_le_of_ne hpre.length_le fun e => hneq (hpre.eq_of_length e)
      rw [List.prefix_iff_eq_take.1 hpre]
      exact (h path (mem_keys.2 hp)).2.2 _ hlen (fun e => hne (List.eq_nil_of_length_eq_zero e))
    · intro h path hp
      have hp := mem_keys.1 hp
      refine ⟨h.ne_nil path hp, h.named path hp, fun k hk h0 => ?_⟩
      have hlen : (path.take k).length = k := by rw [List.length_take]; omega
      refine h.above path hp _ (List.take_prefix k path) (fun e => h0 ?_) (fun e => ?_)
      · rw [e] at hlen; exact hlen.symm
      · rw [e] at hlen; omega

/-- Every item above an item is there, whether or not it is one that can hold items. -/
def Closed (tree : Tree) : Prop :=
  ∀ path, tree.contains path = true → ∀ above, above <+: path → above ≠ [] → tree.contains above = true

instance (tree : Tree) : Decidable tree.Closed :=
  decidable_of_iff (∀ path ∈ tree.keys, ∀ above ∈ path.inits, above ≠ [] → tree.contains above = true) <| by
    simp only [Closed, mem_keys, List.mem_inits]

theorem Closed.eraseBelow_of_absent {tree : Tree} (hc : tree.Closed) {path : ItemPath} (hp : path ≠ [])
    (h : tree.contains path = false) : tree.eraseBelow path = tree := by
  refine ext fun q => ?_
  rw [get?_eraseBelow]
  by_cases hq : path <+: q
  · rw [if_pos hq, eq_comm, ← contains_eq_false_iff, ← Bool.not_eq_true]
    intro hthere
    rw [hc q hthere path hq hp] at h
    exact Bool.noConfusion h
  · rw [if_neg hq]

namespace WellFormed

variable {tree : Tree}

/-- Every item on the way to an item is there and can hold items. -/
theorem holds_of_mem_downFrom (wf : tree.WellFormed) {names : List String} {name : String} {q : ItemPath}
    (h : tree.contains (names ++ [name]) = true) (hq : q ∈ ItemPath.downFrom [] names) : tree.holds q = true := by
  have hne := ItemPath.ne_of_mem_downFrom hq
  obtain ⟨k, -, hk, rfl⟩ := ItemPath.mem_downFrom.1 hq
  rw [List.nil_append] at hne ⊢
  have hpre : names.take k <+: names ++ [name] := (List.take_prefix k names).trans (List.prefix_append _ _)
  refine wf.above _ h _ hpre hne fun e => ?_
  have := congrArg List.length e
  rw [List.length_take, List.length_append, List.length_singleton] at this
  omega

/-- Nothing lies below what cannot hold items. -/
theorem contains_below_eq_false (wf : tree.WellFormed) {path below : ItemPath} (hp : path ≠ [])
    (h : tree.holds path = false) (hb : below ≠ []) : tree.contains (path ++ below) = false := by
  rw [← Bool.not_eq_true]
  intro hc
  have := wf.above _ hc path (List.prefix_append _ _) hp (fun e => hb (List.self_eq_append_right.1 e))
  rw [h] at this
  exact Bool.noConfusion this

theorem children_of_job (wf : tree.WellFormed) {path : ItemPath} {node : Node} (h : tree.get? path = some node)
    (hk : node.kind = .job) : tree.children path = [] := by
  have hno : tree.holds path = false := holds_of_job h hk
  rw [List.eq_nil_iff_forall_not_mem]
  intro name hname
  have hbelow := wf.contains_below_eq_false (wf.ne_nil path (contains_iff.2 ⟨node, h⟩)) hno (List.cons_ne_nil name [])
  rw [mem_children.1 hname] at hbelow
  exact Bool.noConfusion hbelow

/-- Nothing lies at or below an absent path. -/
theorem contains_of_prefix (wf : tree.WellFormed) {path deeper : ItemPath} (hp : path ≠ []) (hpre : path <+: deeper)
    (h : tree.contains deeper = true) : tree.contains path = true := by
  by_cases he : path = deeper
  · rw [he]; exact h
  · exact contains_of_holds (wf.above _ h path hpre hp he)

theorem closed (wf : tree.WellFormed) : tree.Closed := fun _ h _ hpre hne => wf.contains_of_prefix hne hpre h

theorem eraseBelow_of_absent (wf : tree.WellFormed) {path : ItemPath} (hp : path ≠ [])
    (h : tree.contains path = false) : tree.eraseBelow path = tree := wf.closed.eraseBelow_of_absent hp h

end WellFormed

/-! ## Operations that keep a tree well formed -/

theorem contains_insert (tree : Tree) (path q : ItemPath) (node : Node) :
    (tree.insert path node).contains q = (decide (q = path) || tree.contains q) := by
  unfold contains
  rw [get?_insert]
  by_cases h : q = path <;> simp [h]

theorem holds_insert_ne (tree : Tree) {path q : ItemPath} (node : Node) (h : q ≠ path) :
    (tree.insert path node).holds q = tree.holds q := by
  unfold holds
  rw [get?_insert_ne tree node h]

/-- A new item in a scope that can hold it. -/
theorem WellFormed.insert_new {tree : Tree} (wf : tree.WellFormed) {scope : ItemPath} {name : String} (node : Node)
    (hs : scope = [] ∨ tree.holds scope = true) (hn : IsItemName name)
    (hnew : tree.contains (scope ++ [name]) = false) : (tree.insert (scope ++ [name]) node).WellFormed := by
  have hnamed : scope.Named := by
    rcases hs with rfl | hs
    · exact fun n hn => absurd hn List.not_mem_nil
    · exact wf.named _ (contains_of_holds hs)
  refine ⟨fun p hp => ?_, fun p hp => ?_, fun p hp above hpre hne hneq => ?_⟩
  · rw [contains_insert, Bool.or_eq_true, decide_eq_true_eq] at hp
    rcases hp with rfl | hp
    · simp
    · exact wf.ne_nil p hp
  · rw [contains_insert, Bool.or_eq_true, decide_eq_true_eq] at hp
    rcases hp with rfl | hp
    · exact ItemPath.named_append.2 ⟨hnamed, ItemPath.named_singleton.2 hn⟩
    · exact wf.named p hp
  · have hold : tree.holds above = true := by
      rw [contains_insert, Bool.or_eq_true, decide_eq_true_eq] at hp
      rcases hp with rfl | hp
      · -- the items above the new one are the scope and what is above the scope
        have hab : above <+: scope := (List.prefix_concat_iff.1 hpre).resolve_left hneq
        rcases hs with rfl | hs
        · exact absurd (List.prefix_nil.1 hab) hne
        · by_cases he : above = scope
          · rw [he]; exact hs
          · exact wf.above _ (contains_of_holds hs) above hab hne he
      · exact wf.above p hp above hpre hne hneq
    rw [holds_insert_ne]
    · exact hold
    · rintro rfl
      rw [contains_of_holds hold] at hnew
      exact Bool.noConfusion hnew

/-- A change to an item that is there puts nothing new into the tree. -/
theorem contains_insert_of_get? {tree : Tree} {path : ItemPath} {old : Node} (h : tree.get? path = some old)
    (node : Node) (q : ItemPath) : (tree.insert path node).contains q = tree.contains q := by
  rw [contains_insert]
  by_cases hq : q = path
  · rw [hq, contains_iff.2 ⟨old, h⟩, Bool.or_true]
  · rw [decide_eq_false hq, Bool.false_or]

/-- An item changed in place keeps its kind. -/
theorem WellFormed.insert_same {tree : Tree} (wf : tree.WellFormed) {path : ItemPath} {old node : Node}
    (h : tree.get? path = some old) (hk : node.kind = old.kind) : (tree.insert path node).WellFormed := by
  have hc := contains_insert_of_get? h node
  have hh : ∀ q, (tree.insert path node).holds q = tree.holds q := by
    intro q
    by_cases hq : q = path
    · subst hq
      unfold holds
      rw [get?_insert_self, h]
      simp only [hk]
    · exact holds_insert_ne tree node hq
  refine ⟨fun p hp => wf.ne_nil p ((hc p).symm.trans hp), fun p hp => wf.named p ((hc p).symm.trans hp),
    fun p hp above hpre hne hneq => ?_⟩
  rw [hh]
  exact wf.above p ((hc p).symm.trans hp) above hpre hne hneq

theorem contains_eraseBelow {tree : Tree} {path q : ItemPath} :
    (tree.eraseBelow path).contains q = true ↔ ¬ path <+: q ∧ tree.contains q = true := by
  unfold contains
  rw [get?_eraseBelow]
  by_cases h : path <+: q <;> simp [h]

theorem Closed.eraseBelow {tree : Tree} (h : tree.Closed) (path : ItemPath) : (tree.eraseBelow path).Closed := by
  intro q hq above hpre hne
  obtain ⟨hkept, hthere⟩ := contains_eraseBelow.1 hq
  exact contains_eraseBelow.2 ⟨fun hbelow => hkept (hbelow.trans hpre), h q hthere above hpre hne⟩

/-- Erasing a subtree takes nothing away from above another item. -/
theorem WellFormed.eraseBelow {tree : Tree} (wf : tree.WellFormed) (path : ItemPath) :
    (tree.eraseBelow path).WellFormed := by
  have hc : ∀ q, (tree.eraseBelow path).contains q = true → ¬ path <+: q ∧ tree.contains q = true :=
    fun _ => contains_eraseBelow.1
  refine ⟨fun p hp => wf.ne_nil p (hc p hp).2, fun p hp => wf.named p (hc p hp).2,
    fun p hp above hpre hne hneq => ?_⟩
  have hold := wf.above p (hc p hp).2 above hpre hne hneq
  have hno : ¬ path <+: above := fun h => (hc p hp).1 (h.trans hpre)
  unfold holds at hold ⊢
  rw [get?_eraseBelow, if_neg hno]
  exact hold

end JobHierarchy.Memory.Tree
