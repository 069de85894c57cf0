import JobHierarchy.Proofs.Codes
import JobHierarchy.Proofs.Running
/-!
# Handles of builds

The handle of a build holds a URL and a number. The URL is the one of the item with the number behind it, and reading
it drops the number again, so both together lead back to the build that was listed: `JobServer.listed_builds`. Numbers
count from one and builds are only ever added behind the others. So a handle is good for as long as its item is there,
also after more builds.
-/

namespace JobHierarchy

namespace Memory

/-- An item is what some job refers to. -/
theorem exists_jobPath_eq {path : ItemPath} (hne : path ≠ []) (h : path.Named) : ∃ job, jobPath job = path := by
  obtain ⟨above, name, rfl⟩ := (List.eq_nil_or_concat path).resolve_left hne
  rw [List.concat_eq_append] at h ⊢
  obtain ⟨ha, hn⟩ := ItemPath.named_append.1 h
  exact ⟨⟨scopeOf above, name⟩, jobPath_scopeOf ha (ItemPath.named_singleton.1 hn)⟩

end Memory

namespace JobServer

open Memory Memory.Server

variable {s : Server} {path : ItemPath} {node : Node}

/-- **Builds are listed newest first, and each handle leads back to its build**: its result is the one to be read, and
stopping it ends that build if it runs and changes nothing else. Both hold on every server where the item has no fewer
builds than were listed. -/
theorem listed_builds (hne : path ≠ []) (hp : path.Named) (h : s.tree.get? path = some node)
    (hf : s.listingFailures.lookup path = none) (hlen : node.builds.length < UInt32.size) :
    (∃ job, jobPath job = path) ∧
    ∀ job, jobPath job = path → ∃ handles,
      s.Yields (Operation.ask (.listBuilds job)) (.ok handles) (s.recordAll [.listBuilds path]) ∧
      handles.map BuildHandle.number = (List.range' 1 node.builds.length).reverse ∧
      ∀ handle ∈ handles, ∀ (later : Server) (grown : Node), later.tree.get? path = some grown →
        node.builds.length ≤ grown.builds.length →
        ∃ result, grown.builds[handle.number - 1]? = some result ∧
          later.Yields (Operation.ask (.buildResult handle)) (.ok result)
            (later.recordAll [.buildResult path handle.number]) ∧
          ∃ tree, later.Yields (Operation.ask (.stopBuild handle)) (.ok ())
              ((later.recordAll [.stopBuild path handle.number]).withTree tree) ∧
            tree.get? path =
              some { grown with builds := grown.builds.set (handle.number - 1) (some (result.getD .aborted)) } ∧
            ∀ q, q ≠ path → tree.get? q = later.tree.get? q := by
  refine ⟨exists_jobPath_eq hne hp, fun job hjob => ⟨node.numbers.map (buildHandle path), ?_, ?_, ?_⟩⟩
  · rw [← Node.listed_eq_numbers hlen]
    exact yields_listing hjob h hf
  · simp [Node.numbers, buildHandle, Function.comp_def]
  · intro handle hhandle later grown hgrown hle
    obtain ⟨number, hn, rfl⟩ := List.mem_map.1 hhandle
    obtain ⟨h0, hn⟩ := Node.mem_numbers.1 hn
    have hn : number ∈ grown.numbers := Node.mem_numbers.2 ⟨h0, hn.trans hle⟩
    obtain ⟨result, hb⟩ := Node.exists_build hn
    have hread := later.yields_buildResult hp hgrown hn
    rw [hb, Option.join_some] at hread
    refine ⟨result, hb, hread, _, later.yields_stopBuild_of_mem_numbers hp hgrown hn, ?_, fun q hq => ?_⟩
    · rw [Tree.get?_insert_self, Node.stopAmong_singleton h0 hb]
      rfl
    · exact Tree.get?_insert_ne _ _ hq

/-- A job whose URL is hard to read, with a build that runs between two that have ended. -/
def halfway : Node := ⟨.job, none, [some .success, none, some .failure]⟩

def halfwayServer : Server := { Server.empty with tree := Tree.empty.insert tricky halfway }

theorem listed_builds_halfway :
    tricky ≠ [] ∧ tricky.Named ∧ halfwayServer.tree.get? tricky = some halfway ∧
      halfwayServer.listingFailures.lookup tricky = none ∧ halfway.builds.length < UInt32.size ∧
      ∃ handle tree, halfwayServer.Yields (Operation.ask (.buildResult handle)) (.ok none)
          (halfwayServer.recordAll [.buildResult tricky 2]) ∧
        halfwayServer.Yields (Operation.ask (.stopBuild handle)) (.ok ())
          ((halfwayServer.recordAll [.stopBuild tricky 2]).withTree tree) ∧
        tree.get? tricky = some { halfway with builds := [some .success, some .aborted, some .failure] } := by
  have hne : tricky ≠ [] := by decide
  have hp : tricky.Named := by decide
  have h : halfwayServer.tree.get? tricky = some halfway := by decide
  have hlen : halfway.builds.length < UInt32.size := by decide
  obtain ⟨⟨job, hjob⟩, hlisted⟩ := listed_builds hne hp h rfl hlen
  obtain ⟨handles, -, hnumbers, hleads⟩ := hlisted job hjob
  have hsecond : 2 ∈ handles.map BuildHandle.number := by
    rw [hnumbers]
    decide
  obtain ⟨handle, hmem, hnumber⟩ := List.mem_map.1 hsecond
  obtain ⟨result, hb, hread, tree, hstop, hthere, -⟩ := hleads handle hmem halfwayServer halfway h (Nat.le_refl _)
  rw [hnumber] at hb hread hstop hthere
  cases hb
  exact ⟨hne, hp, h, rfl, hlen, handle, tree, hread, hstop, hthere⟩

end JobServer

end JobHierarchy
