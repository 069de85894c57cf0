import JobHierarchy.BuildResult
import JobHierarchy.Text.Split
/-!
# The items of a hierarchy

A `Tree` holds items by path. Its entries are sorted by path and no path occurs twice, so two trees
that answer every look-up alike are the same tree. The items directly in an item come out in
ascending order of their names.
-/

namespace JobHierarchy.Memory

/-- The names on the way to an item. No names: the top level, which is no item. -/
abbrev ItemPath := List String

/-- The path that a text with slashes stands for. -/
def ItemPath.ofString (text : String) : ItemPath := Text.parts '/' text

def ItemPath.display (path : ItemPath) : String := "/".intercalate path

/-- The item `name` in a scope; a slash in the name leads deeper. -/
def ItemPath.item (scope : ItemPath) (name : String) : ItemPath := scope ++ ofString name

inductive NodeKind where
  | folder
  | job
  /-- A job that holds jobs, as a multi-branch pipeline does. -/
  | container
  deriving DecidableEq, Repr

/-- An item. Builds are listed from number one; a build without a result still runs. -/
structure Node where
  kind : NodeKind
  definition : Option String
  builds : List (Option BuildResult)
  deriving DecidableEq, Repr

def Node.ofKind (kind : NodeKind) : Node := ⟨kind, none, []⟩

/-- The entry with `key` among entries in ascending order, replaced or put in its place. -/
def insertEntry (key : ItemPath) (node : Node) : List (ItemPath × Node) → List (ItemPath × Node)
  | [] => [(key, node)]
  | (k, n) :: rest =>
    if key < k then (key, node) :: (k, n) :: rest
    else if k < key then (k, n) :: insertEntry key node rest
    else (key, node) :: rest

theorem fst_mem_insertEntry {key : ItemPath} {node : Node} {entries : List (ItemPath × Node)}
    {e : ItemPath × Node} (h : e ∈ insertEntry key node entries) : e.1 = key ∨ e ∈ entries := by
  induction entries with
  | nil => simp [insertEntry] at h; simp [h]
  | cons p rest ih =>
    obtain ⟨k, n⟩ := p
    simp only [insertEntry] at h
    split at h
    · rcases List.mem_cons.1 h with rfl | h
      · exact .inl rfl
      · exact .inr h
    · split at h
      · rcases List.mem_cons.1 h with rfl | h
        · exact .inr (List.mem_cons_self ..)
        · exact (ih h).imp_right (List.mem_cons_of_mem _)
      · rcases List.mem_cons.1 h with rfl | h
        · exact .inl rfl
        · exact .inr (List.mem_cons_of_mem _ h)

theorem pairwise_insertEntry {key : ItemPath} {node : Node} {entries : List (ItemPath × Node)}
    (h : entries.Pairwise fun a b => a.1 < b.1) :
    (insertEntry key node entries).Pairwise fun a b => a.1 < b.1 := by
  induction entries with
  | nil => simp [insertEntry]
  | cons p rest ih =>
    obtain ⟨k, n⟩ := p
    obtain ⟨hk, hrest⟩ := List.pairwise_cons.1 h
    simp only [insertEntry]
    split
    · next hlt =>
      refine List.pairwise_cons.2 ⟨fun e he => ?_, h⟩
      rcases List.mem_cons.1 he with rfl | he
      · exact hlt
      · exact List.lt_trans hlt (hk e he)
    · next hnlt =>
      split
      · next hgt =>
        refine List.pairwise_cons.2 ⟨fun e he => ?_, ih hrest⟩
        rcases fst_mem_insertEntry he with he | he
        · rw [he]; exact hgt
        · exact hk e he
      · next hngt =>
        have hkey : k = key := List.le_antisymm hnlt hngt
        subst hkey
        exact List.pairwise_cons.2 ⟨hk, hrest⟩

/-- Items by path. -/
structure Tree where
  entries : List (ItemPath × Node)
  ascending : entries.Pairwise fun a b => a.1 < b.1
  deriving DecidableEq, Repr

namespace Tree

def empty : Tree := ⟨[], .nil⟩

instance : Inhabited Tree := ⟨empty⟩

def get? (tree : Tree) (path : ItemPath) : Option Node := tree.entries.lookup path

def contains (tree : Tree) (path : ItemPath) : Bool := (tree.get? path).isSome

/-- The item at `path` becomes `node`. -/
def insert (tree : Tree) (path : ItemPath) (node : Node) : Tree :=
  ⟨insertEntry path node tree.entries, pairwise_insertEntry tree.ascending⟩

/-- Without the item at `path` and all that is in it. -/
def eraseBelow (tree : Tree) (path : ItemPath) : Tree :=
  ⟨tree.entries.filter fun e => ¬ path.isPrefixOf e.1, tree.ascending.filter _⟩

def size (tree : Tree) : Nat := tree.entries.length

/-- The name that leads from `path` to a path one level deeper. -/
def childName? : (path deeper : ItemPath) → Option String
  | [], [name] => some name
  | p :: path, d :: deeper => if p = d then childName? path deeper else none
  | _, _ => none

/-- The names of the items directly in the item at `path`. -/
def children (tree : Tree) (path : ItemPath) : List String :=
  tree.entries.filterMap fun e => childName? path e.1

end Tree

end JobHierarchy.Memory
