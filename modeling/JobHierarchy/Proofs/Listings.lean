import JobHierarchy.Proofs.Codes
import JobHierarchy.Proofs.Hierarchy
import Mathlib.Data.List.Nodup
import Mathlib.Data.List.Sort
import Mathlib.Data.String.Basic
/-!
# What is listed in an item

The items directly in an item can be read off the texts of all items, taken in order: a text that goes on behind the
text of the item and a slash shows a name, if there is no other slash in the rest (`Tree.namesIn`). Two items whose
texts begin alike are told apart by that slash. So the names are the children (`Tree.children_eq_namesIn`), although
texts come in another order than paths: the text `a-b` stands before `a/b`, and the path `a`, `b` before the path `a-b`.

The children of an item divide what is below it: each item there lies at or below exactly one of them
(`Tree.children_partition`).
-/

namespace JobHierarchy

/-! ## Texts that go on behind a slash -/

theorem Text.splitAt_append_cons (sep : Char) (rest : List Char) : ∀ cs : List Char,
    splitAt sep (cs ++ sep :: rest) = splitAt sep cs ++ splitAt sep rest
  | [] => by simp [splitAt]
  | c :: cs => by
    have ih := splitAt_append_cons sep rest cs
    obtain ⟨part, parts, hparts⟩ := List.exists_cons_of_ne_nil (splitAt_ne_nil sep cs)
    rw [List.cons_append, splitAt, splitAt, ih, hparts]
    by_cases hc : c = sep <;> simp [hc]

theorem Text.append_lt_append {lead a b : String} : lead ++ a < lead ++ b ↔ a < b := by
  rw [String.lt_iff_toList_lt, String.lt_iff_toList_lt, String.toList_append, String.toList_append]
  induction lead.toList with
  | nil => rfl
  | cons c cs ih => rw [List.cons_append, List.cons_append, List.cons_lt_cons_self, ih]

namespace Memory

namespace ItemPath

variable {path key : ItemPath} {scope text rest name : String}

/-- What a text goes on with behind the text of a scope and a slash. -/
def behind? (scope text : String) : Option String := (Text.after? (scope ++ "/").toList text.toList).map String.ofList

/-- The text is one of something in the scope, or deeper. -/
def Below (scope text : String) : Prop := (behind? scope text).isSome = true

instance (scope text : String) : Decidable (Below scope text) := inferInstanceAs (Decidable (_ = true))

theorem behind?_eq_some_iff : behind? scope text = some rest ↔ text = scope ++ "/" ++ rest := by
  rw [behind?, Option.map_eq_some_iff]
  constructor
  · rintro ⟨cs, hcs, rfl⟩
    rw [← String.toList_inj, Text.after?_eq_some_iff.1 hcs]
    simp only [String.toList_append, String.toList_ofList]
  · rintro rfl
    exact ⟨rest.toList, by simp only [String.toList_append, Text.after?_append], String.ofList_toList⟩

theorem ofString_append (scope rest : String) : ofString (scope ++ "/" ++ rest) = ofString scope ++ ofString rest := by
  have hslash : "/".toList = ['/'] := by decide
  simp [ofString, Text.parts, hslash, Text.splitAt_append_cons]

theorem ofString_of_slash_notMem (h : '/' ∉ text.toList) : ofString text = [text] := by
  simp [ofString, Text.parts, Text.splitAt_eq_singleton h]

theorem display_singleton (name : String) : display [name] = name := rfl

theorem display_append {deeper : ItemPath} (hp : path ≠ []) (hd : deeper ≠ []) :
    display (path ++ deeper) = path.display ++ "/" ++ deeper.display :=
  String.intercalate_append_of_ne_nil hp hd

section
variable (hp : path ≠ []) (hnp : path.Named) (hk : key ≠ []) (hnk : key.Named)
include hp hnp hk hnk

/-- A path is known by its text. -/
theorem display_inj : path.display = key.display ↔ path = key := by
  constructor
  · intro h
    rw [← ofString_display hp hnp, h, ofString_display hk hnk]
  · rintro rfl
    rfl

/-- The text of an item goes on behind the text of a scope if its path does, and with the text of the rest. -/
theorem behind?_display : behind? path.display key.display = some rest ↔
    ∃ deeper : ItemPath, deeper ≠ [] ∧ key = path ++ deeper ∧ rest = deeper.display := by
  rw [behind?_eq_some_iff]
  constructor
  · intro h
    have hkey : key = path ++ ofString rest := by
      rw [← ofString_display hk hnk, h, ofString_append, ofString_display hp hnp]
    rw [hkey, display_append hp (ofString_ne_nil rest)] at h
    exact ⟨_, ofString_ne_nil rest, hkey, ((String.append_right_inj _).1 h).symm⟩
  · rintro ⟨deeper, hne, rfl, rfl⟩
    exact display_append hp hne

theorem below_display_iff : Below path.display key.display ↔ path <+: key ∧ path ≠ key := by
  rw [Below, Option.isSome_iff_exists]
  simp only [behind?_display hp hnp hk hnk]
  constructor
  · rintro ⟨rest, deeper, hne, rfl, -⟩
    exact ⟨List.prefix_append _ _, fun e => hne (List.self_eq_append_right.1 e)⟩
  · rintro ⟨⟨deeper, rfl⟩, hne⟩
    exact ⟨_, deeper, fun e => hne (by rw [e, List.append_nil]), rfl, rfl⟩

theorem atOrBelow_display_iff :
    path.display = key.display ∨ Below path.display key.display ↔ path <+: key := by
  rw [display_inj hp hnp hk hnk, below_display_iff hp hnp hk hnk]
  constructor
  · rintro (rfl | ⟨hpre, -⟩)
    · exact List.prefix_refl path
    · exact hpre
  · intro hpre
    by_cases he : path = key
    · exact .inl he
    · exact .inr ⟨hpre, he⟩

/-- It goes on with a single name for the items directly in the scope, and for no others. -/
theorem behind?_display_name :
    behind? path.display key.display = some name ∧ '/' ∉ name.toList ↔ IsItemName name ∧ key = path.item name := by
  rw [behind?_display hp hnp hk hnk]
  constructor
  · rintro ⟨⟨deeper, hne, rfl, rfl⟩, hslash⟩
    have hdeeper := (named_append.1 hnk).2
    obtain ⟨only, rfl⟩ : ∃ only, deeper = [only] :=
      ⟨deeper.display, by rw [← ofString_of_slash_notMem hslash, ofString_display hne hdeeper]⟩
    have hname : IsItemName only := named_singleton.1 hdeeper
    rw [display_singleton]
    exact ⟨hname, (item_eq hname path).symm⟩
  · rintro ⟨hname, rfl⟩
    rw [item_eq hname]
    exact ⟨⟨[name], List.cons_ne_nil _ _, rfl, (display_singleton name).symm⟩, hname.2⟩

end

end ItemPath

/-! ## Names read off the texts -/

namespace Tree

open ItemPath

variable {tree : Tree} {path : ItemPath} {name text : String}

/-- Every item has a path of item names. -/
def Named (tree : Tree) : Prop := ∀ key ∈ tree.keys, key ≠ [] ∧ ItemPath.Named key

instance (tree : Tree) : Decidable tree.Named :=
  inferInstanceAs (Decidable (∀ key ∈ tree.keys, key ≠ [] ∧ ItemPath.Named key))

/-- The texts of all items, in order. -/
def texts (tree : Tree) : List String := (tree.keys.map display).insertionSort (· ≤ ·)

/-- The names that texts show behind the text of a scope: what is behind the slash, without another slash. -/
def namesIn (tree : Tree) (scope : String) : List String :=
  (tree.texts.filterMap (behind? scope)).filter fun rest => '/' ∉ rest.toList

theorem mem_texts : text ∈ tree.texts ↔ ∃ key, tree.contains key = true ∧ display key = text := by
  rw [texts, List.mem_insertionSort, List.mem_map]
  simp only [mem_keys]

theorem texts_pairwise (h : tree.Named) : tree.texts.Pairwise (· < ·) := by
  have hnodup : (tree.keys.map display).Nodup := by
    refine List.Nodup.map_on (fun key hkey other hother heq => ?_) (tree.keys_pairwise.imp fun hlt heq => ?_)
    · exact (display_inj (h key hkey).1 (h key hkey).2 (h other hother).1 (h other hother).2).1 heq
    · exact List.lt_irrefl _ (heq ▸ hlt)
  have hdistinct : tree.texts.Nodup := (List.perm_insertionSort (· ≤ ·) _).nodup_iff.2 hnodup
  exact ((List.pairwise_insertionSort (· ≤ ·) _).and hdistinct).imp fun hle => lt_of_le_of_ne hle.1 hle.2

theorem namesIn_pairwise (h : tree.Named) (scope : String) : (tree.namesIn scope).Pairwise (· < ·) := by
  refine List.Pairwise.filter _ (List.pairwise_filterMap.2 ?_)
  refine (texts_pairwise h).imp fun hlt rest hrest rest' hrest' => ?_
  rwa [behind?_eq_some_iff.1 hrest, behind?_eq_some_iff.1 hrest', Text.append_lt_append] at hlt

theorem mem_namesIn (h : tree.Named) (hp : path ≠ []) (hnp : path.Named) :
    name ∈ tree.namesIn path.display ↔ IsItemName name ∧ tree.contains (path.item name) = true := by
  simp only [namesIn, List.mem_filter, List.mem_filterMap, decide_eq_true_iff, mem_texts]
  constructor
  · rintro ⟨⟨_, ⟨key, hkey, rfl⟩, hbehind⟩, hslash⟩
    obtain ⟨hk, hnk⟩ := h key (mem_keys.2 hkey)
    obtain ⟨hname, rfl⟩ := (behind?_display_name hp hnp hk hnk).1 ⟨hbehind, hslash⟩
    exact ⟨hname, hkey⟩
  · rintro ⟨hname, hkey⟩
    obtain ⟨hk, hnk⟩ := h _ (mem_keys.2 hkey)
    obtain ⟨hbehind, hslash⟩ := (behind?_display_name hp hnp hk hnk).2 ⟨hname, rfl⟩
    exact ⟨⟨_, ⟨_, hkey, rfl⟩, hbehind⟩, hslash⟩

/-- A child has the name of an item, and that item is there. -/
theorem mem_children_iff_item (h : tree.Named) :
    name ∈ tree.children path ↔ IsItemName name ∧ tree.contains (path.item name) = true := by
  rw [mem_children]
  constructor
  · intro hkey
    have hname := named_singleton.1 (named_append.1 (h _ (mem_keys.2 hkey)).2).2
    exact ⟨hname, by rwa [item_eq hname]⟩
  · rintro ⟨hname, hkey⟩
    rwa [item_eq hname] at hkey

/-- **The names that the texts show are the children**, in the same order. -/
theorem children_eq_namesIn (h : tree.Named) (hp : path ≠ []) (hnp : path.Named) :
    tree.children path = tree.namesIn path.display := by
  refine (tree.children_pairwise path).eq_of_mem_iff (namesIn_pairwise h path.display) fun name => ?_
  rw [mem_children_iff_item h, mem_namesIn h hp hnp]

/-- What is deeper than an item is in exactly one of its children, or is that child. -/
theorem Closed.existsUnique_child (hc : tree.Closed) {key : ItemPath} (hkey : tree.contains key = true)
    (hpre : path <+: key) (hne : path ≠ key) : ∃! name, name ∈ tree.children path ∧ path ++ [name] <+: key := by
  obtain ⟨deeper, rfl⟩ := hpre
  obtain ⟨name, deeper, rfl⟩ := List.exists_cons_of_ne_nil fun e => hne (List.self_eq_append_right.2 e)
  have hchild : path ++ [name] <+: path ++ name :: deeper := (List.prefix_append_right_inj path).2 ⟨deeper, rfl⟩
  refine ⟨name, ⟨mem_children.2 (hc _ hkey _ hchild (by simp)), hchild⟩, fun other hother => ?_⟩
  exact (List.cons_prefix_cons.1 ((List.prefix_append_right_inj path).1 hother.2)).1

/-- **Children divide what is below an item.** In a tree with items under item names, the children of any path are the
names that the texts show, in ascending order, and those of the items there. A text that goes on in another way than
with a slash, or that has another slash behind it, shows none. If the tree is closed, each item below the path is one of
the children or below it, and that of exactly one. -/
theorem children_partition (h : tree.Named) (hp : path ≠ []) (hnp : path.Named) :
    tree.children path = tree.namesIn path.display ∧
    (tree.children path).Pairwise (· < ·) ∧
    (∀ name, name ∈ tree.children path ↔ IsItemName name ∧ tree.contains (path.item name) = true) ∧
    (∀ key : ItemPath, tree.contains key = true → ∀ name,
      behind? path.display key.display = some name ∧ '/' ∉ name.toList ↔ IsItemName name ∧ key = path.item name) ∧
    (tree.Closed → ∀ key : ItemPath, tree.contains key = true → Below path.display key.display →
      ∃! name, name ∈ tree.children path ∧
        ((path.item name).display = key.display ∨ Below (path.item name).display key.display)) := by
  refine ⟨children_eq_namesIn h hp hnp, tree.children_pairwise path, fun _ => mem_children_iff_item h,
    fun key hkey name => ?_, fun hc key hkey hbelow => ?_⟩
  · obtain ⟨hk, hnk⟩ := h key (mem_keys.2 hkey)
    exact behind?_display_name hp hnp hk hnk
  · obtain ⟨hk, hnk⟩ := h key (mem_keys.2 hkey)
    obtain ⟨hpre, hne⟩ := (below_display_iff hp hnp hk hnk).1 hbelow
    have hitem : ∀ name, name ∈ tree.children path ∧ ((path.item name).display = key.display ∨
        Below (path.item name).display key.display) ↔ name ∈ tree.children path ∧ path ++ [name] <+: key := by
      refine fun name => and_congr_right fun hmem => ?_
      have hname := ((mem_children_iff_item h).1 hmem).1
      rw [item_eq hname]
      exact atOrBelow_display_iff (by simp) (named_append.2 ⟨hnp, named_singleton.2 hname⟩) hk hnk
    simp only [hitem]
    exact hc.existsUnique_child hkey hpre hne

/-- Names that begin alike: the text `a-b` stands between `a` and `a/b`. -/
def neighbours : Tree :=
  (((((Tree.empty.insert ["a"] (.ofKind .container)).insert ["a", "b"] (.ofKind .folder)).insert
    ["a", "b", "c"] (.ofKind .job)).insert ["a", "d"] (.ofKind .job)).insert ["a-b"] (.ofKind .job)).insert
    ["ab"] (.ofKind .job)

theorem children_partition_neighbours : neighbours.Named ∧ (["a"] : ItemPath) ≠ [] ∧ ItemPath.Named ["a"] ∧
    neighbours.Closed ∧ neighbours.contains ["a", "b", "c"] = true ∧ Below "a" "a/b/c" ∧
    neighbours.namesIn "a" = ["b", "d"] ∧
    (∃! name, name ∈ neighbours.children ["a"] ∧
      ((ItemPath.item ["a"] name).display = "a/b/c" ∨ Below (ItemPath.item ["a"] name).display "a/b/c")) := by
  have hkeys : neighbours.Named := by decide
  have hp : (["a"] : ItemPath) ≠ [] := by decide
  have hnp : ItemPath.Named ["a"] := by decide
  have hc : neighbours.Closed := by decide
  have hkey : neighbours.contains ["a", "b", "c"] = true := by decide
  have hbelow : Below "a" "a/b/c" := by decide
  obtain ⟨hnames, -, -, -, hone⟩ := children_partition hkeys hp hnp
  exact ⟨hkeys, hp, hnp, hc, hkey, hbelow, hnames.symm.trans (by decide), hone hc ["a", "b", "c"] hkey hbelow⟩

end Tree

end Memory

end JobHierarchy
