import JobHierarchy.Proofs.Abort
/-!
# Stopping builds part of the way

Stopping all builds below an item can end early. If the item is not there, the walk does not begin. If the
builds of some item at or below it cannot be listed, the walk ends at the first such item in pre-order: the
items before it have been dealt with, and it and the items after it are as they were
(`JobServer.abortAllBuilds_partial`).
-/

namespace JobHierarchy

namespace Memory

namespace Server

variable {s : Server} {q : ItemPath} {before after visit : List ItemPath}

/-! ## The first item whose builds cannot be listed -/

theorem hides_eq_true_iff : s.hides q = true ↔ ∃ status, s.listingFailures.lookup q = some status :=
  Option.isSome_iff_exists

theorem hides_eq_false_iff : s.hides q = false ↔ s.listingFailures.lookup q = none := by
  rw [hides, Option.isSome_eq_false_iff, Option.isNone_iff_eq_none]

theorem find?_hides_split (hbefore : ∀ p ∈ before, s.hides p = false) (hq : s.hides q = true) :
    (before ++ q :: after).find? s.hides = some q := by
  have hnone : before.find? s.hides = none := by
    rw [List.find?_eq_none]
    intro p hp
    rw [hbefore p hp]
    exact Bool.false_ne_true
  rw [List.find?_append, hnone, Option.none_or, List.find?_cons_of_pos hq]

/-- The items before the first whose builds cannot be listed are the ones reached. -/
theorem reached_split (hbefore : ∀ p ∈ before, s.hides p = false) (hq : s.hides q = true) :
    s.reached (before ++ q :: after) = before := by
  have hall : ∀ p ∈ before, (!s.hides p) = true := by
    intro p hp
    rw [hbefore p hp]
    rfl
  rw [reached, List.takeWhile_append_of_pos hall, List.takeWhile_cons_of_neg (by simp [hq]), List.append_nil]

theorem abortOutcome_split (hbefore : ∀ p ∈ before, s.hides p = false) (hq : s.hides q = true) :
    s.abortOutcome (before ++ q :: after) =
      .error (.transport (s.listingFailures.lookup q) ("cannot list builds of " ++ q.display)) := by
  rw [abortOutcome, find?_hides_split hbefore hq]

/-- Where some item hides its builds, there is a first one. -/
theorem exists_first_hidden (h : ∃ q ∈ visit, s.hides q = true) :
    ∃ before q after, visit = before ++ q :: after ∧ (∀ p ∈ before, s.hides p = false) ∧ s.hides q = true := by
  induction visit with
  | nil =>
    obtain ⟨q, hq, -⟩ := h
    exact absurd hq List.not_mem_nil
  | cons p visit ih =>
    cases hp : s.hides p with
    | true => exact ⟨[], p, visit, rfl, fun _ h => absurd h List.not_mem_nil, hp⟩
    | false =>
      obtain ⟨q, hq, hhid⟩ := h
      have hlater : ∃ q ∈ visit, s.hides q = true := by
        rcases List.mem_cons.1 hq with rfl | hq
        · rw [hp] at hhid
          cases hhid
        · exact ⟨q, hq, hhid⟩
      obtain ⟨before, q', after, rfl, hbefore, hq'⟩ := ih hlater
      refine ⟨p :: before, q', after, rfl, ?_, hq'⟩
      intro p' hp'
      rcases List.mem_cons.1 hp' with rfl | hp'
      · exact hp
      · exact hbefore p' hp'

end Server

end Memory

namespace JobServer

open Memory Memory.Server

variable {s : Server} {folder : FolderPath} {name : String}

/-- There is no item to begin at. -/
theorem abortAllBuilds_absent (server : JobServer) (hn : IsItemName name)
    (h : s.tree.contains (folder.segments ++ [name]) = false) :
    ∃ kind shown calls, s.Yields (server.abortAllBuilds folder name) (.error (.notFound kind shown))
      (s.recordAll calls) := by
  obtain ⟨kind, shown, hvisit⟩ := visit_absent (s := s) server hn h
  refine ⟨kind, shown, s.tree.findJobCalls folder name, s.yields_census.bind ?_⟩
  rw [abortPending_succ]
  exact hvisit.bind_error _

/-- The walk ends at the first item whose builds cannot be listed. -/
theorem abortAllBuilds_hidden (server : JobServer) (wf : s.tree.WellFormed) (hnum : s.tree.Numbered)
    (hthere : s.tree.contains (folder.segments ++ [name]) = true) {before after : List ItemPath} {q : ItemPath}
    (hsplit : s.tree.preorder (folder.segments ++ [name]) = before ++ q :: after)
    (hbefore : ∀ p ∈ before, s.hides p = false) (hq : s.hides q = true) :
    ∃ calls, s.Yields (server.abortAllBuilds folder name)
      (.error (.transport (s.listingFailures.lookup q) ("cannot list builds of " ++ q.display)))
      ((s.recordAll calls).withTree (s.tree.stopAt before)) := by
  obtain ⟨calls, hy, -⟩ := abortAllBuilds_aborts server wf hnum hthere
  rw [hsplit, abortOutcome_split hbefore hq, reached_split hbefore hq] at hy
  exact ⟨calls, hy⟩

/-- **Stopping builds part of the way.** An item that is not there is not found, and nothing is changed. If
some item at or below the one named hides its builds, the walk ends with the failure of the first such item
in pre-order; then the builds that ran at the items before it are aborted, and that is all that has changed. -/
theorem abortAllBuilds_partial (server : JobServer) (folder : FolderPath) (name : String) (hn : IsItemName name)
    (wf : s.tree.WellFormed) (hnum : s.tree.Numbered) :
    (s.tree.contains (folder.segments ++ [name]) = false →
      ∃ kind shown s', s.Yields (server.abortAllBuilds folder name) (.error (.notFound kind shown)) s' ∧
        s'.tree = s.tree) ∧
    (s.tree.contains (folder.segments ++ [name]) = true →
      (∃ q, s.tree.contains q = true ∧ folder.segments ++ [name] <+: q ∧ s.listingFailures.lookup q ≠ none) →
      ∃ before q after status s', s.tree.preorder (folder.segments ++ [name]) = before ++ q :: after ∧
        (∀ p ∈ before, s.listingFailures.lookup p = none) ∧ s.listingFailures.lookup q = some status ∧
        s.Yields (server.abortAllBuilds folder name)
          (.error (.transport (some status) ("cannot list builds of " ++ q.display))) s' ∧
        ∀ p, s'.tree.get? p = if p ∈ before then (s.tree.get? p).map Node.stopped else s.tree.get? p) := by
  constructor
  · intro habsent
    obtain ⟨kind, shown, calls, hy⟩ := abortAllBuilds_absent server hn habsent
    exact ⟨kind, shown, _, hy, rfl⟩
  · rintro hthere ⟨p, hc, hpre, hp⟩
    have hsome : ∃ p ∈ s.tree.preorder (folder.segments ++ [name]), s.hides p = true :=
      ⟨p, (mem_preorder wf (by simp) p).2 ⟨hc, hpre⟩, hides_eq_true_iff.2 (Option.ne_none_iff_exists'.1 hp)⟩
    obtain ⟨before, q, after, hsplit, hbefore, hq⟩ := exists_first_hidden hsome
    obtain ⟨status, hstatus⟩ := hides_eq_true_iff.1 hq
    obtain ⟨calls, hy⟩ := abortAllBuilds_hidden server wf hnum hthere hsplit hbefore hq
    rw [hstatus] at hy
    exact ⟨before, q, after, status, _, hsplit, fun p hp => hides_eq_false_iff.1 (hbefore p hp), hstatus, hy,
      s.tree.get?_stopAt before⟩

/-- The items before `ci/zoo` are the folder, the pipeline and its branch; there is nothing at `ci2`. -/
theorem abortAllBuilds_partial_busy :
    IsItemName "ci" ∧ IsItemName "ci2" ∧ busy.tree.WellFormed ∧ busy.tree.Numbered ∧
      (∃ kind shown s', busy.Yields ((ofUrl Memory.baseUrl).abortAllBuilds .topLevel "ci2")
        (.error (.notFound kind shown)) s' ∧ s'.tree = busy.tree) ∧
      (∃ q, busy.tree.contains q = true ∧ ["ci"] <+: q ∧ busy.listingFailures.lookup q ≠ none) ∧
      ∃ s', busy.Yields ((ofUrl Memory.baseUrl).abortAllBuilds .topLevel "ci")
          (.error (.transport (some 500) "cannot list builds of ci/zoo")) s' ∧
        s'.tree.get? ["ci", "app"] = some ⟨.container, none, [some .aborted, some .success, some .aborted]⟩ ∧
        s'.tree.get? ["ci", "zoo"] = some ⟨.job, none, [none]⟩ := by
  have wf : busy.tree.WellFormed := by decide
  have hnum : busy.tree.Numbered := by decide
  have hhidden : ∃ q, busy.tree.contains q = true ∧ ["ci"] <+: q ∧ busy.listingFailures.lookup q ≠ none :=
    ⟨["ci", "zoo"], by decide, by decide, by decide⟩
  refine ⟨by decide, by decide, wf, hnum, ?_, hhidden, ?_⟩
  · exact (abortAllBuilds_partial (ofUrl Memory.baseUrl) .topLevel "ci2" (by decide) wf hnum).1 (by decide)
  · obtain ⟨before, q, after, status, s', hsplit, hbefore, hq, hy, hnodes⟩ :=
      (abortAllBuilds_partial (ofUrl Memory.baseUrl) .topLevel "ci" (by decide) wf hnum).2 (by decide) hhidden
    have hshown : ∀ p ∈ before, busy.hides p = false := fun p hp => hides_eq_false_iff.2 (hbefore p hp)
    have hhides : busy.hides q = true := hides_eq_true_iff.2 ⟨status, hq⟩
    have hfirst : busy.reached (before ++ q :: after) = before := reached_split hshown hhides
    have hstop : (before ++ q :: after).find? busy.hides = some q := find?_hides_split hshown hhides
    rw [← hsplit, Tree.preorder_eq_within wf _ (by simp)] at hfirst hstop
    have hzoo : q = ["ci", "zoo"] := (Option.some.inj (hstop.symm.trans (by decide) : some q = some ["ci", "zoo"]))
    subst hzoo
    have hstatus : status = 500 := Option.some.inj (hq.symm.trans (by decide))
    subst hstatus
    refine ⟨s', hy, ?_, ?_⟩
    · rw [hnodes, ← hfirst]
      decide
    · rw [hnodes, ← hfirst]
      decide

end JobServer

end JobHierarchy
