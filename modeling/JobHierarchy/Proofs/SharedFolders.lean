import JobHierarchy.Proofs.Clients
import JobHierarchy.Proofs.Folders
/-!
# Clients that make the same folders

Clients that walk down paths of one server, making what is missing, can find a folder absent together and
ask for it together. One of them is refused, looks again and finds it. Whatever the order of their requests,
every client comes to the handle of its path, and the tree has gained the missing folders and nothing else
(`resolve_shared`).

The invariant is a relation between servers (`Server.Grown`): items are kept, and what is new is an empty
folder at a wanted path. All clients keep to it, so a folder that one of them has found stays there for it.
-/

namespace JobHierarchy

namespace Memory.Server

variable {wanted : ItemPath → Prop} {s s' s₁ s₂ s₃ : Server}

/-! ## Growing by folders -/

/-- Nothing is in the way of a wanted folder: no creation is made to fail, and what is at a wanted path can
hold items. -/
structure Open (wanted : ItemPath → Prop) (s : Server) : Prop where
  wellFormed : s.tree.WellFormed
  failures : s.folderFailures = []
  holds : ∀ q, wanted q → s.tree.contains q = true → s.tree.holds q = true

/-- Every item is as it was, and what is new is an empty folder at a wanted path. -/
structure Grown (wanted : ItemPath → Prop) (s s' : Server) : Prop where
  opened : s.Open wanted → s'.Open wanted
  kept : ∀ q, s.tree.contains q = true → s'.tree.get? q = s.tree.get? q
  new : ∀ q, s.tree.contains q = false →
    s'.tree.contains q = false ∨ (wanted q ∧ s'.tree.get? q = some (.ofKind .folder))

theorem Grown.of_tree (htree : s'.tree = s.tree) (hf : s'.folderFailures = s.folderFailures) : Grown wanted s s' := by
  refine ⟨fun ho => ⟨?_, ?_, ?_⟩, fun q _ => by rw [htree], fun q h => .inl (by rw [htree]; exact h)⟩
  · rw [htree]; exact ho.wellFormed
  · rw [hf]; exact ho.failures
  · rw [htree]; exact ho.holds

theorem Grown.refl (s : Server) : Grown wanted s s := .of_tree rfl rfl

theorem Grown.contains (h : Grown wanted s s') {q : ItemPath} (hq : s.tree.contains q = true) :
    s'.tree.contains q = true := by
  unfold Tree.contains at hq ⊢
  rw [h.kept q hq]
  exact hq

theorem Grown.holds (h : Grown wanted s s') {q : ItemPath} (hq : s.tree.holds q = true) :
    s'.tree.holds q = true := by
  have hc := Tree.contains_of_holds hq
  unfold Tree.holds at hq ⊢
  rw [h.kept q hc]
  exact hq

theorem Grown.trans (h₁ : Grown wanted s₁ s₂) (h₂ : Grown wanted s₂ s₃) : Grown wanted s₁ s₃ := by
  refine ⟨fun ho => h₂.opened (h₁.opened ho), fun q hq => (h₂.kept q (h₁.contains hq)).trans (h₁.kept q hq),
    fun q hq => ?_⟩
  rcases h₁.new q hq with hno | ⟨hw, hnew⟩
  · exact h₂.new q hno
  · exact .inr ⟨hw, (h₂.kept q (Tree.contains_iff.2 ⟨_, hnew⟩)).trans hnew⟩

/-- A new folder at a wanted path. -/
theorem Grown.withFolder {scope : ItemPath} {name : String} (hw : wanted (scope ++ [name])) (hn : IsItemName name)
    (h : scope = [] ∨ s.tree.holds scope = true) (hnew : s.tree.contains (scope ++ [name]) = false) :
    Grown wanted s (s.withFolder (scope ++ [name])) := by
  have hne : ∀ {q}, s.tree.contains q = true → q ≠ scope ++ [name] := by
    rintro q hq rfl
    rw [hnew] at hq
    cases hq
  refine ⟨fun ho => ⟨ho.wellFormed.insert_new _ h hn hnew, ho.failures, fun q hq hc => ?_⟩, fun q hq => ?_,
    fun q hq => ?_⟩
  · by_cases he : q = scope ++ [name]
    · subst he
      exact Tree.holds_iff.2 ⟨_, Tree.get?_insert_self _ _ _, by decide⟩
    · have hold : (s.withFolder (scope ++ [name])).tree.contains q = s.tree.contains q := by
        unfold Tree.contains
        rw [Server.withFolder, Tree.get?_insert_ne _ _ he]
      rw [Server.withFolder, Tree.holds_insert_ne _ _ he]
      exact ho.holds q hq (hold ▸ hc)
  · exact Tree.get?_insert_ne _ _ (hne hq)
  · by_cases he : q = scope ++ [name]
    · subst he
      exact .inr ⟨hw, Tree.get?_insert_self _ _ _⟩
    · refine .inl ?_
      unfold Tree.contains at hq ⊢
      rw [Server.withFolder, Tree.get?_insert_ne _ _ he]
      exact hq

/-- A request for a wanted folder, granted or not, leaves the folder there. -/
theorem grown_submitFolder {scope : ItemPath} {name : String} (ho : s.Open wanted) (hw : wanted (scope ++ [name]))
    (hn : IsItemName name) (h : scope = [] ∨ s.tree.holds scope = true) :
    Grown wanted s (s.submitFolder scope name).2 ∧
      (s.submitFolder scope name).2.tree.holds (scope ++ [name]) = true := by
  have hf : s.folderFailures.lookup (scope ++ [name]) = none := by rw [ho.failures]; rfl
  cases hc : s.tree.contains (scope ++ [name]) with
  | false =>
    rw [submitFolder_new hn hf h hc]
    exact ⟨.withFolder hw hn h hc, Tree.holds_iff.2 ⟨_, Tree.get?_insert_self _ _ _, by decide⟩⟩
  | true =>
    rw [submitFolder_taken hn hf h hc]
    exact ⟨.of_tree rfl rfl, ho.holds _ hw hc⟩

/-- Once every wanted folder is there, nothing else is new. -/
theorem Grown.get?_eq (hg : Grown wanted s s') (hthere : ∀ q, wanted q → s'.tree.contains q = true)
    (q : ItemPath) [Decidable (wanted q)] :
    s'.tree.get? q = if wanted q ∧ s.tree.contains q = false then some (.ofKind .folder) else s.tree.get? q := by
  cases hc : s.tree.contains q with
  | true => rw [if_neg (by simp), hg.kept q hc]
  | false =>
    rcases hg.new q hc with hno | ⟨hw, hnew⟩
    · have hw : ¬ wanted q := fun hw => by rw [hthere q hw] at hno; cases hno
      rw [if_neg (fun h => hw h.1), Tree.contains_eq_false_iff.1 hno, Tree.contains_eq_false_iff.1 hc]
    · rw [if_pos ⟨hw, rfl⟩, hnew]

/-- A walk can stand at `path`: nothing is in the way, and the folder is there. -/
structure Reached (wanted : ItemPath → Prop) (path : ItemPath) (s : Server) : Prop where
  opened : s.Open wanted
  there : path = [] ∨ s.tree.holds path = true

theorem Reached.mono {path : ItemPath} (h : Reached wanted path s) (hg : Grown wanted s s') : Reached wanted path s' :=
  ⟨hg.opened h.opened, h.there.imp_right hg.holds⟩

/-- Whoever has come to a folder has come past the folders above it. -/
theorem Reached.holds_prefixes {path : FolderPath} (h : Reached wanted path.segments s) :
    ∀ q ∈ path.prefixes, s.tree.holds q = true := by
  intro q hq
  obtain ⟨hne, hpre⟩ := FolderPath.mem_prefixes.1 hq
  have hhold : s.tree.holds path.segments = true :=
    h.there.resolve_left fun e => hne (List.prefix_nil.1 (e ▸ hpre))
  by_cases he : q = path.segments
  · rw [he]; exact hhold
  · exact h.opened.wellFormed.above _ (Tree.contains_of_holds hhold) q hpre hne he

end Memory.Server

namespace JobServer

open Memory Memory.Server

variable {server : JobServer} {s : Server} {wanted : ItemPath → Prop} {above : ItemPath} {name : String}

/-! ## One step down -/

theorem getJob_succeeds (ha : above.Named) (hn : IsItemName name) (h : s.Reached wanted above) :
    (Operation.ask (.getJob (scopeOf above) name)).Succeeds (Grown wanted)
      (fun found s' => s'.Reached wanted above ∧
        found = if s'.tree.contains (above ++ [name]) then some ⟨scopeOf above, name⟩ else none) s := by
  intro s₁ hg
  rw [s₁.perform_getJob ha hn]
  have hkeep : Grown wanted s₁ (s₁.recordAll [.getJob (above ++ [name])]) := .of_tree rfl rfl
  exact ⟨hkeep, _, rfl, (h.mono hg).mono hkeep, rfl⟩

theorem createFolder_safe (hm : server.InMemory) (ha : above.Named) (hn : IsItemName name)
    (hw : wanted (above ++ [name])) (h : s.Reached wanted above) :
    (server.createFolder (scopeOf above) name).Safe (Grown wanted)
      (fun _ s' => s'.Reached wanted (above ++ [name])) s := by
  unfold createFolder
  rw [hm.url, scopeUrl_scopeOf, childFolder_eq hm, definition_eq hm, pure_bind]
  have hask : (Operation.ask (.submitFolder (urlOf above) name (substitute TemplateKind.folder.builtIn [])
      server.credentials)).Safe (Grown wanted) (fun _ s' => s'.Reached wanted (above ++ [name])) s := by
    intro s₁ hg
    have h₁ := h.mono hg
    have hrecord : Grown wanted s₁ (s₁.recordAll [.createFolder (above ++ [name])]) := .of_tree rfl rfl
    obtain ⟨hgrown, hhold⟩ := grown_submitFolder (hrecord.opened h₁.opened) hw hn h₁.there
    rw [perform_submitFolder ha hn]
    exact ⟨hrecord.trans hgrown, (hrecord.trans hgrown).opened h₁.opened, .inr hhold⟩
  exact hask.bind (fun _ _ h => h) fun _ _ h => h

/-- Whoever makes the folder, a client that asks for it finds it. -/
theorem createAndFind_succeeds (hm : server.InMemory) (ha : above.Named) (hn : IsItemName name)
    (hw : wanted (above ++ [name])) (h : s.Reached wanted above) :
    (server.createAndFind (scopeOf above) name).Succeeds (Grown wanted)
      (fun job s' => job = ⟨scopeOf above, name⟩ ∧ s'.Reached wanted (above ++ [name])) s := by
  rw [createAndFind]
  refine Operation.Succeeds.bind (createFolder_safe hm ha hn hw h).outcome fun attempt s₁ h₁ => ?_
  -- whatever came of the attempt, the folder is found now
  have hlook : (Operation.ask (.getJob (scopeOf above) name)).Succeeds (Grown wanted)
      (fun found s' => found = some ⟨scopeOf above, name⟩ ∧ s'.Reached wanted (above ++ [name])) s₁ := by
    intro s₂ hg
    have h₂ := h₁.mono hg
    have hc := Tree.contains_of_holds (h₂.there.resolve_left (by simp))
    have hkeep : Grown wanted s₂ (s₂.recordAll [.getJob (above ++ [name])]) := .of_tree rfl rfl
    rw [s₂.perform_getJob ha hn, if_pos hc]
    exact ⟨hkeep, _, rfl, rfl, h₂.mono hkeep⟩
  refine hlook.bind ?_
  rintro found s₃ ⟨rfl, h₃⟩
  cases attempt with
  | ok _ => exact ⟨_, rfl, rfl, h₃⟩
  | error _ => exact ⟨_, rfl, rfl, h₃⟩

/-- Looking into a folder that has been found, and going on with its handle. -/
theorem enter_safe {β : Type} {post : Except Error β → Server → Prop} {f : Option FolderView → Operation β}
    (ha : above.Named) (hn : IsItemName name) (h : s.Reached wanted (above ++ [name]))
    (hf : ∀ (view : FolderView) (s' : Server), view.handle = handleOf (above ++ [name]) →
      s'.Reached wanted (above ++ [name]) → (f (some view)).Safe (Grown wanted) post s') :
    (Operation.ask (.folderView ⟨scopeOf above, name⟩) >>= f).Safe (Grown wanted) post s := by
  have hview : (Operation.ask (.folderView ⟨scopeOf above, name⟩)).Succeeds (Grown wanted)
      (fun found s' => ∃ view : FolderView, found = some view ∧ view.handle = handleOf (above ++ [name]) ∧
        s'.Reached wanted (above ++ [name])) s := by
    intro s₁ hg
    have h₁ := h.mono hg
    obtain ⟨node, hnode, hk⟩ := Tree.holds_iff.1 (h₁.there.resolve_left (by simp))
    have hkeep : Grown wanted s₁ (s₁.recordAll [.folderView (above ++ [name])]) := .of_tree rfl rfl
    rw [s₁.perform_folderView ha hn, folderView_of_holder hnode hk]
    exact ⟨hkeep, _, rfl, _, rfl, rfl, h₁.mono hkeep⟩
  refine hview.bind ?_
  rintro found s₁ ⟨view, rfl, hhandle, h₁⟩
  exact hf view s₁ hhandle h₁

/-! ## The whole way -/

theorem resolveBelow_succeeds (hm : server.InMemory) : ∀ (names : List String) (s : Server) (above : ItemPath),
    ItemPath.Named (above ++ names) → (∀ q ∈ ItemPath.downFrom above names, wanted q) → s.Reached wanted above →
    (server.resolveBelow true above (scopeOf above) names).Succeeds (Grown wanted)
      (fun found s' => found = scopeOf (above ++ names) ∧ s'.Reached wanted (above ++ names)) s
  | [], s, above, _, _, h => by
    rw [resolveBelow, List.append_nil]
    exact ⟨_, rfl, rfl, h⟩
  | name :: rest, s, above, hnamed, hw, h => by
    obtain ⟨ha, hr⟩ := ItemPath.named_append.1 hnamed
    have hn : IsItemName name := hr name List.mem_cons_self
    have hsplit : above ++ name :: rest = above ++ [name] ++ rest := by simp
    have hwanted : wanted (above ++ [name]) := hw _ List.mem_cons_self
    rw [hsplit] at hnamed ⊢
    have hrest : ∀ (view : FolderView) (s' : Server), view.handle = handleOf (above ++ [name]) →
        s'.Reached wanted (above ++ [name]) →
        (server.resolveBelow true (above ++ [name]) (some view.handle) rest).Succeeds (Grown wanted)
          (fun found s' => found = scopeOf (above ++ [name] ++ rest) ∧ s'.Reached wanted (above ++ [name] ++ rest))
          s' := by
      intro view s' hview h'
      have ih := resolveBelow_succeeds hm rest s' (above ++ [name]) hnamed
        (fun q hq => hw q (List.mem_cons_of_mem _ hq)) h'
      rw [hview]
      rw [scopeOf_append_singleton] at ih
      exact ih
    rw [resolveBelow]
    refine Operation.Succeeds.bind (getJob_succeeds ha hn h) ?_
    rintro found s₁ ⟨h₁, rfl⟩
    cases hc : s₁.tree.contains (above ++ [name]) with
    | true => exact enter_safe ha hn ⟨h₁.opened, .inr (h₁.opened.holds _ hwanted hc)⟩ hrest
    | false =>
      refine Operation.Succeeds.bind (createAndFind_succeeds hm ha hn hwanted h₁) ?_
      rintro job s₂ ⟨rfl, h₂⟩
      exact enter_safe ha hn h₂ hrest

theorem resolve_succeeds (hm : server.InMemory) {path : FolderPath} (hw : ∀ q ∈ path.prefixes, wanted q)
    (ho : s.Open wanted) :
    (server.resolve path true).Succeeds (Grown wanted)
      (fun found s' => found = path.handle? ∧ s'.Reached wanted path.segments) s := by
  have hwalk := resolveBelow_succeeds hm path.segments s [] path.named hw ⟨ho, .inl rfl⟩
  refine Operation.Succeeds.bind hwalk ?_
  rintro found s' ⟨rfl, h⟩
  rw [path.handle?_eq]
  exact ⟨_, rfl, rfl, h⟩

/-! ## Many walks -/

/-- Clients that each walk down a path of their own, making what is missing. -/
def walks (server : JobServer) (s : Server) (paths : List FolderPath) : Clients (Except Error (Option FolderHandle)) :=
  ⟨s, paths.map fun path => (server.resolve path true).run⟩

/-- What a client has at its end: the handle of its path, on a server where its folder is there. -/
def Arrived (wanted : ItemPath → Prop) (paths : List FolderPath) (i : Nat) (x : Except Error (Option FolderHandle))
    (s : Server) : Prop :=
  ∀ path, paths[i]? = some path → x = .ok path.handle? ∧ s.Reached wanted path.segments

theorem Arrived.mono {wanted : ItemPath → Prop} {paths : List FolderPath} {i : Nat}
    {x : Except Error (Option FolderHandle)} {s s' : Server} (h : Arrived wanted paths i x s) (hg : Grown wanted s s') :
    Arrived wanted paths i x s' :=
  fun path hpath => ⟨(h path hpath).1, (h path hpath).2.mono hg⟩

theorem walks_safe (hm : server.InMemory) {paths : List FolderPath} (hw : ∀ path ∈ paths, ∀ q ∈ path.prefixes, wanted q)
    (ho : s.Open wanted) : (server.walks s paths).Safe (Grown wanted) (Arrived wanted paths) := by
  intro i p hp
  rw [walks, List.getElem?_map] at hp
  obtain ⟨path, hpath, rfl⟩ := Option.map_eq_some_iff.1 hp
  refine (resolve_succeeds hm (hw path (List.mem_of_getElem? hpath)) ho).imp ?_
  rintro x s' ⟨found, rfl, rfl, h⟩ path' hpath'
  rw [hpath] at hpath'
  cases hpath'
  exact ⟨rfl, h⟩

/-- **Lazy creation beside other clients**: on a server that refuses no folder and has no plain job on the way,
in every order of turns, a client that ends has come to the handle of its path; wherever the clients stand,
all can still come to an end; and then every item is as it was and there is one empty folder more for each
prefix of a path that was missing. -/
theorem resolve_shared (hm : server.InMemory) (wf : s.tree.WellFormed) (hf : s.folderFailures = [])
    (paths : List FolderPath)
    (hfree : ∀ path ∈ paths, ∀ q ∈ path.prefixes, (s.tree.get? q).map Node.kind ≠ some .job)
    (turns : List Turn) :
    (∀ (i : Nat) path x, paths[i]? = some path → ((server.walks s paths).follow turns).programs[i]? = some (.done x) →
        x = .ok path.handle?) ∧
      (∃ more, ((server.walks s paths).follow (turns ++ more)).Ended) ∧
      (((server.walks s paths).follow turns).Ended → ∀ q,
        ((server.walks s paths).follow turns).server.tree.get? q =
          if q ∈ paths.flatMap FolderPath.prefixes ∧ s.tree.contains q = false then some (.ofKind .folder)
          else s.tree.get? q) := by
  let wanted : ItemPath → Prop := (· ∈ paths.flatMap FolderPath.prefixes)
  have hw : ∀ path ∈ paths, ∀ q ∈ path.prefixes, wanted q := fun path hp q hq => List.mem_flatMap.2 ⟨path, hp, hq⟩
  have ho : s.Open wanted := by
    refine ⟨wf, hf, fun q hq hc => ?_⟩
    obtain ⟨path, hp, hq⟩ := List.mem_flatMap.1 hq
    obtain ⟨node, hnode⟩ := Tree.contains_iff.1 hc
    refine Tree.holds_iff.2 ⟨node, hnode, fun hk => hfree path hp q hq ?_⟩
    rw [hnode, Option.map_some, hk]
  obtain ⟨hgrown, hsafe⟩ := (walks_safe hm hw ho).follow Grown.refl (fun _ _ _ => .trans)
    (fun _ _ _ _ hg h => h.mono hg) turns
  refine ⟨fun i path x hpath hx => (hsafe i _ hx path hpath).1, ?_, fun hended q => hgrown.get?_eq (fun q hq => ?_) q⟩
  · obtain ⟨more, hmore⟩ := ((server.walks s paths).follow turns).exists_follow_ended
    exact ⟨more, by rw [Clients.follow_append]; exact hmore⟩
  · -- the client that wanted the folder has arrived
    obtain ⟨path, hp, hq⟩ := List.mem_flatMap.1 hq
    obtain ⟨i, hi, rfl⟩ := List.mem_iff_getElem.1 hp
    have hlen : i < ((server.walks s paths).follow turns).programs.length := by
      rw [Clients.length_follow, walks, List.length_map]; exact hi
    obtain ⟨x, hx⟩ := hended _ (List.getElem_mem hlen)
    have hdone := List.getElem?_eq_getElem hlen
    rw [hx] at hdone
    have harrived := hsafe i _ hdone _ (List.getElem?_eq_getElem hi)
    exact Tree.contains_of_holds (harrived.2.holds_prefixes q hq)

/-- Two paths with a missing folder in common, which is raced from outside as well. -/
def rivals : List FolderPath := [⟨["team", "a+b", "x"], by decide⟩, ⟨["team", "a+b", "50 %"], by decide⟩]

def contested : Server :=
  { Server.empty with
    tree := Tree.empty.insert ["team"] (.ofKind .folder)
    racing := [["team", "a+b"]] }

/-- One turn for each of two clients, over and over. -/
def alternately (rounds : Nat) : List Turn := (List.replicate rounds [⟨0, 0⟩, ⟨1, 0⟩]).flatten

theorem resolve_shared_rivals :
    (ofUrl Memory.baseUrl).InMemory ∧ contested.tree.WellFormed ∧ contested.folderFailures = [] ∧
      (∀ path ∈ rivals, ∀ q ∈ path.prefixes, (contested.tree.get? q).map Node.kind ≠ some .job) ∧
      (((ofUrl Memory.baseUrl).walks contested rivals).follow (alternately 20)).Ended ∧
      ∀ q, (((ofUrl Memory.baseUrl).walks contested rivals).follow (alternately 20)).server.tree.get? q =
        if q ∈ rivals.flatMap FolderPath.prefixes ∧ contested.tree.contains q = false then some (.ofKind .folder)
        else contested.tree.get? q := by
  have wf : contested.tree.WellFormed := by decide
  have hfree : ∀ path ∈ rivals, ∀ q ∈ path.prefixes, (contested.tree.get? q).map Node.kind ≠ some .job := by decide
  have hended : (((ofUrl Memory.baseUrl).walks contested rivals).follow (alternately 20)).Ended := by decide +kernel
  exact ⟨inMemory_ofUrl, wf, rfl, hfree, hended,
    (resolve_shared inMemory_ofUrl wf rfl rivals hfree (alternately 20)).2.2 hended⟩

end JobServer

end JobHierarchy
