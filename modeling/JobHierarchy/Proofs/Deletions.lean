import JobHierarchy.Proofs.Codes
import JobHierarchy.Proofs.Items
import JobHierarchy.Proofs.Listings
/-!
# Deleting items

A folder is deleted by its name or by its path, and refused without a request if it lies in another. Every other
deletion makes one request about one item. Which one that is can be said before, from the name and the handle alone
(`JobServer.deletes_exactly`). The server knows items by their texts. What goes is the item with the text of the
target and every item whose text goes on behind it and a slash; so it is what lies at or below the target, although
the texts of other items may begin alike (`Tree.get?_eraseBelow_text`).

Nothing here needs items to lie only in items that can hold them. If what is above an item is there at all, nothing
lies below an absent path, so to find nothing is to have nothing to delete (`Server.Deletes`).
-/

namespace JobHierarchy

namespace Memory

/-- What lies at or below an item can be told by the texts. -/
theorem Tree.get?_eraseBelow_text (tree : Tree) {target q : ItemPath} (hne : target ≠ []) (hn : target.Named)
    (hq : q ≠ []) (hqn : q.Named) : (tree.eraseBelow target).get? q =
      if target.display = q.display ∨ ItemPath.Below target.display q.display then none else tree.get? q := by
  rw [tree.get?_eraseBelow target q]
  exact if_congr (ItemPath.atOrBelow_display_iff hne hn hq hqn).symm rfl rfl

/-- The operation deletes the item at `target` and all below it by one request, unless the server refuses. Doing it once
more changes nothing. -/
structure Server.Deletes (s : Server) (t : Operation Unit) (target : ItemPath) : Prop where
  refused : ∀ status, s.deleteFailures.lookup target = some status →
    s.Yields t (.error (.transport (some status) ("cannot delete " ++ target.display)))
      (s.recordAll [.deleteJob target])
  gone : s.deleteFailures.lookup target = none →
    ∃ tree, (∀ q, tree.get? q = if target <+: q then none else s.tree.get? q) ∧
      (target.Named → ∀ q : ItemPath, q ≠ [] → q.Named → tree.get? q =
        if target.display = q.display ∨ ItemPath.Below target.display q.display then none else s.tree.get? q) ∧
      s.Yields t (.ok ()) ((s.recordAll [.deleteJob target]).withTree tree) ∧
      ((s.recordAll [.deleteJob target]).withTree tree).Yields t (.ok ())
        ((s.recordAll [.deleteJob target, .deleteJob target]).withTree tree)

end Memory

namespace JobServer

open Memory Memory.Server

variable {s : Server}

theorem deleteItem_deletes (kind : String) {scope : Option FolderHandle} {name : String} {target : ItemPath}
    (h : s.tree.Closed) (ht : (scopePath scope).item name = target) (hne : target ≠ []) :
    s.Deletes (deleteItem kind scope name) target := by
  refine ⟨fun status hf => deleteItem_refused kind ht hf, fun hf => ?_⟩
  have hfirst := deleteItem_erases kind ht hne h hf
  have hsecond := deleteItem_erases (s := (s.recordAll [.deleteJob target]).withTree (s.tree.eraseBelow target)) kind ht
    hne (h.eraseBelow target) hf
  have habsent : (s.tree.eraseBelow target).contains target = false := Tree.contains_eraseBelow_self s.tree target
  rw [withTree_tree, (h.eraseBelow target).eraseBelow_of_absent hne habsent] at hsecond
  exact ⟨_, s.tree.get?_eraseBelow target, fun hn q => s.tree.get?_eraseBelow_text hne hn, hfirst, hsecond⟩

/-- **What is asked for is deleted, all of it and nothing else**, except for folders in folders: there nothing is even
requested. -/
theorem deletes_exactly (h : s.tree.Closed) :
    (∀ path : FolderPath, path.length ≠ 1 →
      ∃ reason, s.Yields (deleteFolderPath path) (.error (.unsupported reason)) s) ∧
    (∀ parent name, ∃ reason, s.Yields (deleteFolder (some parent) name) (.error (.unsupported reason)) s) ∧
    (∀ (path : FolderPath) root, path.segments = [root] → s.Deletes (deleteFolderPath path) [root]) ∧
    (∀ name, s.Deletes (deleteFolder none name) (ItemPath.ofString name)) ∧
    (∀ scope name, IsItemName name → s.Deletes (deleteJob scope name) (scopePath scope ++ [name])) ∧
    ∀ (folder : FolderPath) name, IsItemName name →
      s.Deletes (deleteJob folder.handle? name) (folder.segments ++ [name]) := by
  refine ⟨fun path hlength => ?_, fun parent name => ⟨_, yields_throw s _⟩, fun path root hroot => ?_, fun name => ?_,
    fun scope name hn => ?_, fun folder name hn => ?_⟩
  · unfold deleteFolderPath
    rcases hpath : path.segments with _ | ⟨root, _ | ⟨next, rest⟩⟩
    · exact ⟨_, yields_throw s _⟩
    · exact absurd (congrArg List.length hpath) hlength
    · exact ⟨_, yields_throw s _⟩
  · have hn : IsItemName root := path.named root (by simp [hroot])
    rw [deleteFolderPath, hroot]
    exact deleteItem_deletes "folder" h (item_of_scopePath rfl hn) (List.cons_ne_nil root [])
  · exact deleteItem_deletes "folder" h rfl (ItemPath.ofString_ne_nil name)
  · exact deleteItem_deletes "job" h (item_of_scopePath rfl hn) (by simp)
  · rw [folder.handle?_eq]
    exact deleteItem_deletes "job" h (item_of_scopePath (scopePath_scopeOf folder.named) hn) (by simp)

/-- Names that begin alike, an item below a plain job, and a deletion that the server refuses. -/
def crowded : Server :=
  { Server.empty with
    tree := ((((((Tree.empty.insert ["a"] (.ofKind .job)).insert ["a", "b"] (.ofKind .job)).insert ["ab"]
      (.ofKind .folder)).insert ["t +%"] (.ofKind .folder)).insert ["t +%", "a"] (.ofKind .container)).insert
      ["t +%", "a", "b"] (.ofKind .job)).insert ["t +%", "ab"] (.ofKind .job)
    deleteFailures := [(["ab"], 503)] }

/-- The scope of the folder with the odd name. -/
def oddScope : Option FolderHandle := FolderPath.handle? ⟨["t +%"], by decide⟩

theorem deletes_exactly_crowded : crowded.tree.Closed ∧
    (∃ tree, crowded.Yields (deleteFolder none "a") (.ok ()) ((crowded.recordAll [.deleteJob ["a"]]).withTree tree) ∧
      tree.get? ["a", "b"] = none ∧ tree.get? ["ab"] = some (.ofKind .folder)) ∧
    (∃ tree, crowded.Yields (deleteJob oddScope "a") (.ok ())
        ((crowded.recordAll [.deleteJob ["t +%", "a"]]).withTree tree) ∧
      tree.get? ["t +%", "a", "b"] = none ∧ tree.get? ["t +%", "ab"] = some (.ofKind .job)) ∧
    crowded.Yields (deleteFolder none "ab") (.error (.transport (some 503) "cannot delete ab"))
      (crowded.recordAll [.deleteJob ["ab"]]) := by
  have hc : crowded.tree.Closed := by decide
  obtain ⟨-, -, -, htop, -, hbelow⟩ := deletes_exactly hc
  refine ⟨hc, ?_, ?_, (htop "ab").refused 503 (by decide)⟩
  · obtain ⟨tree, htree, -, hgone, -⟩ := (htop "a").gone (by decide)
    exact ⟨tree, hgone, (htree _).trans (by decide), (htree _).trans (by decide)⟩
  · obtain ⟨tree, htree, -, hgone, -⟩ := (hbelow ⟨["t +%"], by decide⟩ "a" (by decide)).gone (by decide)
    exact ⟨tree, hgone, (htree _).trans (by decide), (htree _).trans (by decide)⟩

end JobServer

end JobHierarchy
