import JobHierarchy.Proofs.Handles
import JobHierarchy.Proofs.Items
import JobHierarchy.Proofs.Lookups
/-!
# Walks with and without creation

A folder path can be resolved by a walk that only looks, or by one that makes what is missing. The first stops at the
shortest prefix of the path where there is no item that can hold others, and asks about nothing deeper
(`Tree.WalkEnds`). The second leaves the tree such that the first one comes to the same, if it succeeds at all
(`JobServer.resolve_agrees`): a request for a folder takes nothing away, whatever it is answered, so what the walk has
come past is still there at its end.
-/

namespace JobHierarchy

namespace Memory

/-! ## Looking -/

theorem ItemPath.downFrom_pairwise : ∀ (above : ItemPath) (names : List String),
    (downFrom above names).Pairwise (· <+: ·)
  | _, [] => .nil
  | above, name :: rest =>
    List.pairwise_cons.2 ⟨fun _ h => above_prefix_of_mem_downFrom h, downFrom_pairwise (above ++ [name]) rest⟩

namespace Tree

variable {tree : Tree} {path : FolderPath} {q : ItemPath} {paths before behind : List ItemPath} {call : Call}

/-- The first gap on the way, with what is in front of it. -/
theorem gap?_eq_some_iff : tree.gap? paths = some q ↔
    tree.holds q = false ∧ ∃ before behind, paths = before ++ q :: behind ∧ ∀ p ∈ before, tree.holds p = true := by
  simp [gap?, List.find?_eq_some_iff_append]

theorem walkCalls_append (h : ∀ p ∈ before, tree.holds p = true) :
    tree.walkCalls (before ++ paths) = before.flatMap ItemPath.lookups ++ tree.walkCalls paths := by
  induction before with
  | nil => rfl
  | cons p before ih =>
    rw [List.cons_append, walkCalls, if_pos (h p List.mem_cons_self),
      ih fun p' hp' => h p' (List.mem_cons_of_mem _ hp'), List.flatMap_cons, List.append_assoc]

theorem eq_of_mem_lookups (h : call ∈ ItemPath.lookups q) : call = .getJob q ∨ call = .folderView q := by
  simpa [ItemPath.lookups] using h

/-- A walk that makes nothing only looks things up, and on its way. -/
theorem exists_of_mem_walkCalls (h : call ∈ tree.walkCalls paths) :
    ∃ q ∈ paths, call = .getJob q ∨ call = .folderView q := by
  induction paths with
  | nil => cases h
  | cons p paths ih =>
    have hhere : call ∈ ItemPath.lookups p → ∃ q ∈ p :: paths, call = .getJob q ∨ call = .folderView q :=
      fun h => ⟨p, List.mem_cons_self, eq_of_mem_lookups h⟩
    rw [walkCalls] at h
    by_cases hold : tree.holds p = true
    · rw [if_pos hold, List.mem_append] at h
      rcases h with h | h
      · exact hhere h
      · obtain ⟨q, hq, hcall⟩ := ih h
        exact ⟨q, List.mem_cons_of_mem _ hq, hcall⟩
    · rw [if_neg hold] at h
      refine hhere ?_
      by_cases hc : tree.contains p = true
      · simpa [hc, ItemPath.lookups] using h
      · rw [if_neg hc, List.mem_singleton] at h
        rw [h]
        exact List.mem_cons_self

/-- At a gap the walk is over. -/
theorem path_prefix_of_mem_walkCalls (hpaths : (before ++ q :: behind).Pairwise (· <+: ·))
    (hbefore : ∀ p ∈ before, tree.holds p = true) (hq : tree.holds q = false)
    (h : call ∈ tree.walkCalls (before ++ q :: behind)) : call.path <+: q := by
  have hhere : ∀ {p}, call ∈ tree.walkCalls [p] ∨ call ∈ ItemPath.lookups p → call.path = p := by
    rintro p (h | h)
    · obtain ⟨p', hp', rfl | rfl⟩ := exists_of_mem_walkCalls h <;> exact List.mem_singleton.1 hp'
    · obtain rfl | rfl := eq_of_mem_lookups h <;> rfl
  have hlast : tree.walkCalls (q :: behind) = tree.walkCalls [q] := by simp [walkCalls, hq]
  rw [walkCalls_append hbefore, hlast, List.mem_append, List.mem_flatMap] at h
  rcases h with ⟨p, hp, h⟩ | h
  · rw [hhere (.inr h)]
    exact (List.pairwise_append.1 hpaths).2.2 p hp q List.mem_cons_self
  · exact (hhere (.inl h)).symm ▸ List.prefix_rfl

/-- How a walk down a path ends that makes nothing, and the requests that it takes. -/
structure WalkEnds (tree : Tree) (path : FolderPath) (x : Except Error (Option FolderHandle)) (calls : List Call) :
    Prop where
  looks : ∀ call ∈ calls, ∃ q ∈ path.prefixes, call = .getJob q ∨ call = .folderView q
  succeeds_iff : (∃ handle, x = .ok handle) ↔ ∀ q ∈ path.prefixes, tree.holds q = true
  handle_eq : ∀ handle, x = .ok handle → handle = path.handle?
  /-- The fault is at the shortest prefix where there is one, and nothing deeper is asked about. -/
  faulty : ∀ e, x = .error e → ∃ q ∈ path.prefixes,
    (tree.contains q = false ∧ e = .notFound "folder" q.display ∨
      (∃ node, tree.get? q = some node ∧ node.kind = .job) ∧ e = .notFound "folder" (q.display ++ " (not a folder)")) ∧
    (∀ above ∈ path.prefixes, above <+: q → above ≠ q → tree.holds above = true) ∧ ∀ call ∈ calls, call.path <+: q

theorem gapFault_cases (h : tree.holds q = false) :
    tree.contains q = false ∧ tree.gapFault q = .notFound "folder" q.display ∨
      (∃ node, tree.get? q = some node ∧ node.kind = .job) ∧
        tree.gapFault q = .notFound "folder" (q.display ++ " (not a folder)") := by
  unfold gapFault
  cases hc : tree.contains q with
  | false => exact .inl ⟨rfl, rfl⟩
  | true =>
    obtain ⟨node, hnode⟩ := contains_iff.1 hc
    exact .inr ⟨⟨node, hnode, kind_of_not_holds h hnode⟩, rfl⟩

theorem walkEnds (tree : Tree) (path : FolderPath) :
    tree.WalkEnds path
      (match tree.gap? path.prefixes with
        | none => .ok path.handle?
        | some q => .error (tree.gapFault q))
      (tree.walkCalls path.prefixes) := by
  have hlooks : ∀ call ∈ tree.walkCalls path.prefixes, ∃ q ∈ path.prefixes, call = .getJob q ∨ call = .folderView q :=
    fun call h => exists_of_mem_walkCalls h
  cases hgap : tree.gap? path.prefixes with
  | none =>
    have hholds := gap?_eq_none_iff.1 hgap
    exact ⟨hlooks, ⟨fun _ => hholds, fun _ => ⟨_, rfl⟩⟩, fun _ h => (Except.ok.inj h).symm, fun _ h => by cases h⟩
  | some q =>
    obtain ⟨hq, before, behind, hpaths, hbefore⟩ := gap?_eq_some_iff.1 hgap
    have hchain : (before ++ q :: behind).Pairwise (· <+: ·) := hpaths ▸ ItemPath.downFrom_pairwise [] path.segments
    have hmem : q ∈ path.prefixes := by simp [hpaths]
    refine ⟨hlooks, ⟨fun ⟨_, h⟩ => (by cases h), fun h => ?_⟩, fun _ h => (by cases h), fun e h => ?_⟩
    · exact absurd (h q hmem) (by simp [hq])
    cases h
    refine ⟨q, hmem, gapFault_cases hq, fun above habove hpre hne => ?_, fun call hcall => ?_⟩
    · rw [hpaths, List.mem_append, List.mem_cons] at habove
      rcases habove with hb | rfl | hb
      · exact hbefore above hb
      · exact absurd rfl hne
      · -- what comes behind the gap is no shorter
        have hback := List.rel_of_pairwise_cons (List.pairwise_append.1 hchain).2.1 hb
        exact absurd (hpre.eq_of_length_le hback.length_le) hne
    · rw [hpaths] at hcall
      exact path_prefix_of_mem_walkCalls hchain hbefore hq hcall

/-- The error is the one of the shortest prefix where there is no item that can hold others, and says whether there is
one at all. -/
def Blocks (tree : Tree) (path : FolderPath) (e : Error) : Prop := ∃ q ∈ path.prefixes,
  (tree.contains q = false ∧ e = .notFound "folder" q.display ∨
    (∃ node, tree.get? q = some node ∧ node.kind = .job) ∧ e = .notFound "folder" (q.display ++ " (not a folder)")) ∧
  ∀ above ∈ path.prefixes, above <+: q → above ≠ q → tree.holds above = true

theorem blocks_of_gap? (h : tree.gap? path.prefixes = some q) : tree.Blocks path (tree.gapFault q) := by
  have hends := tree.walkEnds path
  rw [h] at hends
  obtain ⟨q', hq', hfault, habove, -⟩ := hends.faulty _ rfl
  exact ⟨q', hq', hfault, habove⟩

end Tree

/-! ## Making what is missing -/

namespace Server

variable {s : Server} {scope q above : ItemPath} {name : String}

theorem holds_insertItem {node : Node} {tree : Tree} (h : s.tree.holds q = true)
    (hx : s.insertItem scope name node = .ok tree) : tree.holds q = true := by
  obtain ⟨-, hnew, rfl⟩ := insertItem_eq_ok hx
  have hne : q ≠ scope.item name := by
    rintro rfl
    rw [Tree.contains_of_holds h] at hnew
    cases hnew
  rw [Tree.holds_insert_ne _ _ hne]
  exact h

/-- A request for a folder takes nothing away, whatever becomes of it. -/
theorem holds_submitFolder (h : s.tree.holds q = true) : (s.submitFolder scope name).2.tree.holds q = true := by
  unfold submitFolder
  simp only
  split
  · exact h
  · split
    · exact h
    · next tree htree => exact holds_insertItem h htree

theorem Leads.step (h : s.Leads above) (hold : s.tree.holds (above ++ [name]) = true) : s.Leads (above ++ [name]) := by
  intro q hq hpre
  rcases List.prefix_concat_iff.1 hpre with rfl | hpre
  · exact hold
  · exact h q hq hpre

/-- After an operation that comes to one thing. -/
theorem Yields.ensures_bind {α β : Type} {w : World} {s' : Server} {t : Operation α} {f : α → Operation β}
    {x : Except Error α} {Q : β → Server → Prop} (h : w.server.Yields t x s')
    (hf : ∀ a (w' : World), x = .ok a → w'.server = s' → w'.Ensures (f a) Q) : w.Ensures (t >>= f) Q := by
  obtain ⟨log, hlog⟩ := h w rfl
  refine World.Ensures.bind (Q := fun a s => x = .ok a ∧ s = s') (fun a ha => ?_) fun a w' h => hf a w' h.1 h.2
  rw [hlog] at ha ⊢
  exact ⟨ha, rfl⟩

end Server

end Memory

namespace JobServer

open Memory Memory.Server Memory.World

variable {α : Type} {s : Server} {w : World} {above : ItemPath} {name : String} {Q : α → Server → Prop}

theorem createFolder_keeps (server : JobServer) (s : Server) (scope : Option FolderHandle) (name : String) :
    ∃ x s', s.Yields (server.createFolder scope name) x s' ∧ ∀ q, s.tree.holds q = true → s'.tree.holds q = true := by
  have hrender : s.Yields (server.definition .folder []) _ s := yields_definition rfl s
  unfold createFolder
  rcases hdefinition : server.templates.render .folder [] with e | rendered
  · rw [hdefinition] at hrender
    exact ⟨_, s, hrender.bind_error _, fun q h => h⟩
  · rw [hdefinition] at hrender
    let r : Request := .submitFolder (scopeUrl server.baseUrl scope) name rendered.1 server.credentials
    have hask := s.yields_ask r
    have hkeeps : ∀ q, s.tree.holds q = true → (s.perform r).2.tree.holds q = true :=
      fun q h => holds_submitFolder (s := s.record (callOf r)) h
    rcases hx : (s.perform r).1 with e | _
    · rw [hx] at hask
      exact ⟨_, _, hrender.bind (hask.bind_error _), hkeeps⟩
    · rw [hx] at hask
      exact ⟨_, _, hrender.bind (hask.bind ((yields_report _ _ _).bind (yields_pure _ _))), hkeeps⟩

/-- Whoever asks for a folder and gets a job has found it there. -/
theorem createAndFind_finds (server : JobServer) (s : Server) (ha : above.Named) (hn : IsItemName name) :
    ∃ x s', s.Yields (server.createAndFind (scopeOf above) name) x s' ∧
      (∀ q, s.tree.holds q = true → s'.tree.holds q = true) ∧
      ∀ job, x = .ok job → job = ⟨scopeOf above, name⟩ ∧ s'.tree.contains (above ++ [name]) = true := by
  obtain ⟨attempt, s₁, hattempt, hkeeps⟩ := createFolder_keeps server s (scopeOf above) name
  have hget := s₁.yields_getJob ha hn
  unfold createAndFind
  cases hc : s₁.tree.contains (above ++ [name]) with
  | true =>
    rw [hc, if_pos rfl] at hget
    refine ⟨.ok ⟨scopeOf above, name⟩, s₁.recordAll [.getJob (above ++ [name])], hattempt.outcome.bind (hget.bind ?_),
      hkeeps, fun job h => ?_⟩
    · cases attempt with
      | ok _ => exact yields_pure _ _
      | error e => exact (yields_report _ _ _).bind (yields_pure _ _)
    · exact ⟨(Except.ok.inj h).symm, hc⟩
  | false =>
    rw [hc, if_neg Bool.false_ne_true] at hget
    cases attempt <;>
      exact ⟨_, _, hattempt.outcome.bind (hget.bind (yields_throw _ _)), hkeeps, fun _ h => by cases h⟩

/-- A step into an item that is there: down, if it can hold others. -/
theorem enter_ensures {f : Option FolderView → Operation α} (ha : above.Named) (hn : IsItemName name)
    (hleads : w.server.Leads above) (hthere : w.server.tree.contains (above ++ [name]) = true)
    (hdown : ∀ (w' : World) jobs, w'.server.Leads (above ++ [name]) →
      w'.Ensures (f (some ⟨handleOf (above ++ [name]), jobs⟩)) Q)
    (hjob : ∀ w' : World, w'.Ensures (f none) Q) :
    w.Ensures (Operation.ask (.folderView ⟨scopeOf above, name⟩) >>= f) Q := by
  obtain ⟨node, hnode⟩ := Tree.contains_iff.1 hthere
  have hview := w.server.yields_folderView ha hn
  by_cases hk : node.kind = .job
  · rw [folderView_of_job hnode hk] at hview
    refine hview.ensures_bind fun view w' h _ => ?_
    cases h
    exact hjob w'
  · rw [folderView_of_holder hnode hk] at hview
    refine hview.ensures_bind fun view w' h hw' => ?_
    cases h
    refine hdown w' _ ?_
    rw [hw']
    exact hleads.step (Tree.holds_iff.2 ⟨node, hnode, hk⟩)

/-- A walk has a way behind it at every step, and so at its end, whether or not it may make folders. -/
theorem resolveBelow_ensures (server : JobServer) (create : Bool) : ∀ (names : List String) (above : ItemPath)
    (w : World), ItemPath.Named (above ++ names) → w.server.Leads above →
    w.Ensures (server.resolveBelow create above (scopeOf above) names) fun handle s =>
      handle = scopeOf (above ++ names) ∧ s.Leads (above ++ names)
  | [], above, w, _, hleads => by
    rw [resolveBelow, List.append_nil]
    exact ensures_pure ⟨rfl, hleads⟩
  | name :: rest, above, w, hnamed, hleads => by
    obtain ⟨ha, hr⟩ := ItemPath.named_append.1 hnamed
    have hn : IsItemName name := hr name List.mem_cons_self
    have hsplit : above ++ name :: rest = above ++ [name] ++ rest := by simp
    rw [hsplit] at hnamed ⊢
    have hdown := fun (w' : World) (_ : List String) h =>
      resolveBelow_ensures server create rest (above ++ [name]) w' hnamed h
    rw [scopeOf_append_singleton] at hdown
    rw [resolveBelow]
    refine (w.server.yields_getJob ha hn).ensures_bind fun found w₁ hfound hw₁ => ?_
    have hleads₁ : w₁.server.Leads above := hw₁ ▸ hleads
    cases hc : w.server.tree.contains (above ++ [name]) with
    | true =>
      rw [hc, if_pos rfl] at hfound
      cases hfound
      refine (w₁.server.yields_pure _).ensures_bind fun job w₂ hjob hw₂ => ?_
      cases hjob
      refine enter_ensures ha hn (hw₂ ▸ hleads₁) ?_ hdown fun w' => w'.ensures_throw _
      rw [hw₂, hw₁]
      exact hc
    | false =>
      rw [hc, if_neg Bool.false_ne_true] at hfound
      cases hfound
      cases create with
      | false => exact (w₁.server.yields_throw _).ensures_bind fun _ _ h => by cases h
      | true =>
        obtain ⟨x, s', hmake, hkeeps, hjob⟩ := createAndFind_finds server w₁.server ha hn
        refine hmake.ensures_bind fun job w₂ hx hw₂ => ?_
        obtain ⟨rfl, hthere⟩ := hjob job hx
        rw [← hw₂] at hthere hkeeps
        have hleads₂ : w₂.server.Leads above := fun q hq hpre => hkeeps q (hleads₁ q hq hpre)
        exact enter_ensures ha hn hleads₂ hthere hdown fun w' => w'.ensures_throw _

/-- **Resolving a path** without creation is exact and changes nothing, whatever items there are. After a resolution
with creation that succeeds, whatever requests the server was told to fail and whoever else was faster, it comes to the
same. -/
theorem resolve_agrees (server : JobServer) (path : FolderPath) :
    (∀ s : Server, ∃ x calls, s.Yields (server.resolve path false) x (s.recordAll calls) ∧
      s.tree.WalkEnds path x calls) ∧
    ∀ w : World, w.Ensures (server.resolve path true) fun handle s =>
      ∃ calls, s.Yields (server.resolve path false) (.ok handle) (s.recordAll calls) := by
  refine ⟨fun s => ⟨_, _, resolve_looks server s path, s.tree.walkEnds path⟩, fun w => ?_⟩
  refine (resolveBelow_ensures server true path.segments [] w path.named w.server.leads_nil).bind fun handle w' h => ?_
  refine (w'.ensures_report _ _).bind fun _ w'' hw'' => ensures_pure ⟨path.prefixes.flatMap ItemPath.lookups, ?_⟩
  obtain ⟨rfl, hleads⟩ := h
  rw [hw'', List.nil_append, ← path.handle?_eq]
  refine resolve_yields server false fun q hq => ?_
  obtain ⟨hne, hpre⟩ := FolderPath.mem_prefixes.1 hq
  exact hleads q hne hpre

/-- A plain job with a folder below it. -/
def overgrown : Server :=
  { Server.empty with tree := (Tree.empty.insert ["ci"] (.ofKind .job)).insert ["ci", "a b"] (.ofKind .folder) }

/-- Whatever is below it, a plain job is no folder. -/
example : ((World.ofServer overgrown).runOperation
    ((ofUrl Memory.baseUrl).resolve ⟨["ci", "a b"], by decide⟩ false)).1 =
      .error (.notFound "folder" "ci (not a folder)") := by
  decide +kernel

end JobServer

end JobHierarchy
