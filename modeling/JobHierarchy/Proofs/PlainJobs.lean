import JobHierarchy.Proofs.DefinitionKinds
import JobHierarchy.Proofs.KeptBuilds
import JobHierarchy.Proofs.Parts
import JobHierarchy.Proofs.Replacements
/-!
# Plain jobs

A plain job is a dead end: no walk goes through it or to it, neither a folder nor a job can be created anywhere below
it, and there is nothing below it (`Memory.Server.DeadEnd`). It stays one for as long as it is there, whatever happens
to the server.

Which jobs are plain is read off their definitions. With the built-in ones, a job that was created can be seen as a
folder if it is a multibranch pipeline, or else if the mark of those stands in its script or command
(`JobServer.createJob_folderView`). So what a user writes into a script can make a folder of a pipeline
(`JobServer.not_only_multibranch`).
-/

namespace JobHierarchy

open Memory Memory.Server

namespace Memory

namespace Server

variable {s : Server} {path : ItemPath} {node : Node} {scope : ItemPath} {name : String}

/-- There is nothing below the item at `path`, no walk goes through it, and nothing can be created in it or deeper. -/
structure DeadEnd (s : Server) (path : ItemPath) : Prop where
  empty : ∀ below, below ≠ [] → s.tree.contains (path ++ below) = false
  /-- Every walk to the item or through it ends there, having asked for the items on the way. -/
  unresolved : ∀ (server : JobServer) (folder : FolderPath) (create : Bool), path <+: folder.segments →
    s.Yields (server.resolve folder create) (.error (.notFound "folder" (path.display ++ " (not a folder)")))
      (s.recordAll ((ItemPath.downFrom [] path).flatMap ItemPath.lookups))
  noFolder : ∀ (server : JobServer) (scope : Option FolderHandle) (name : String), path <+: scopePath scope →
    ∃ e s', s.Yields (server.createFolder scope name) (.error e) s' ∧ s'.tree = s.tree
  noJob : ∀ (server : JobServer) (kind : TemplateKind) (scope : Option FolderHandle) (name : String)
    (params : TemplateParams), path <+: scopePath scope → IsItemName name →
    ∃ e s', s.Yields (server.createJob kind scope name params) (.error e) s' ∧ s'.tree = s.tree

/-! ## Scopes at a plain job and below -/

/-- No item can be put at a plain job or below. -/
theorem unheld_of_job (wf : s.tree.WellFormed) (h : s.tree.get? path = some node) (hk : node.kind = .job)
    (hscope : path <+: scope) : ¬ (scope = [] ∨ s.tree.holds scope = true) := by
  have hne : path ≠ [] := wf.ne_nil path (Tree.contains_iff.2 ⟨node, h⟩)
  have hno : s.tree.holds path = false := Tree.holds_of_job h hk
  obtain ⟨below, rfl⟩ := hscope
  rintro (hnil | hholds)
  · exact hne (List.append_eq_nil_iff.1 hnil).1
  · cases below with
    | nil =>
      rw [List.append_nil, hno] at hholds
      cases hholds
    | cons name below =>
      have hbelow := wf.contains_below_eq_false hne hno (List.cons_ne_nil name below)
      rw [Tree.contains_of_holds hholds] at hbelow
      cases hbelow

theorem exists_checkScope_error (h : ¬ (scope = [] ∨ s.tree.holds scope = true)) :
    ∃ e, s.checkScope scope = .error e := by
  cases hscope : s.checkScope scope with
  | ok _ => exact absurd (checkScope_eq_ok hscope) h
  | error e => exact ⟨e, rfl⟩

/-- A folder that is asked for where it cannot be: whatever is answered, the items are as they were. -/
theorem submitFolder_unheld {e : Error} (h : s.checkScope scope = .error e) (name : String) :
    ∃ e' s', s.submitFolder scope name = (.error e', s') ∧ s'.tree = s.tree := by
  have hscope : (s.withoutRace (scope.item name)).checkScope scope = .error e := h
  have hinsert : (s.withoutRace (scope.item name)).insertItem scope name (.ofKind .folder) = .error e := by
    simp only [insertItem, hscope, bind, Except.bind]
  rw [submitFolder_eq, hinsert]
  cases s.folderFailures.lookup (scope.item name) with
  | some status => exact ⟨_, _, rfl, rfl⟩
  | none => exact ⟨_, _, rfl, rfl⟩

/-! ## For as long as it is there -/

theorem Keeps.follow {events : List Event} (h : s.Keeps path node)
    (hkept : ∀ before, before <+: events → (s.follow before).tree.contains path = true) :
    (s.follow events).Keeps path node := by
  induction events generalizing s with
  | nil => exact h
  | cons e events ih =>
    have hnext := h.after e (hkept [e] ⟨events, rfl⟩)
    exact ih hnext fun before hbefore => hkept (e :: before) (List.cons_prefix_cons.2 ⟨rfl, hbefore⟩)

end Server

end Memory

namespace JobServer

variable {server : JobServer} {s s' : Server} {path : ItemPath} {node : Node} {kind : TemplateKind}
  {scope : Option FolderHandle} {name : String} {params : TemplateParams} {job : JobRef}

/-! ## What fails at a plain job -/

/-- Whether or not folders may be made: there are none to make on the way to a job. -/
theorem resolveBelow_through (server : JobServer) (create : Bool) (rest : List String) (hn : IsItemName name)
    (hk : node.kind = .job) : ∀ (names : List String) (s : Server) (above : ItemPath),
    ItemPath.Named (above ++ names) → (∀ q ∈ ItemPath.downFrom above names, s.tree.holds q = true) →
    s.tree.get? (above ++ names ++ [name]) = some node →
    s.Yields (server.resolveBelow create above (scopeOf above) (names ++ name :: rest))
      (.error (.notFound "folder" ((above ++ names ++ [name]).display ++ " (not a folder)")))
      (s.recordAll ((ItemPath.downFrom above (names ++ [name])).flatMap ItemPath.lookups))
  | [], s, above, hnamed, _, h => by
    rw [List.append_nil] at hnamed h ⊢
    simpa [ItemPath.downFrom] using resolveBelow_job server create rest hnamed hn h hk
  | next :: names, s, above, hnamed, hq, h => by
    obtain ⟨ha, hr⟩ := ItemPath.named_append.1 hnamed
    have hsplit : above ++ next :: names = above ++ [next] ++ names := by simp
    rw [hsplit] at hnamed h ⊢
    have ih := resolveBelow_through server create rest hn hk names (s.recordAll (ItemPath.lookups (above ++ [next])))
      (above ++ [next]) hnamed (fun q hmem => hq q (List.mem_cons_of_mem _ hmem)) h
    rw [recordAll_recordAll] at ih
    exact resolveBelow_found ha (hr next List.mem_cons_self) (hq _ List.mem_cons_self) ih

theorem resolve_through (server : JobServer) (wf : s.tree.WellFormed) (h : s.tree.get? path = some node)
    (hk : node.kind = .job) {folder : FolderPath} (create : Bool) (hpath : path <+: folder.segments) :
    s.Yields (server.resolve folder create) (.error (.notFound "folder" (path.display ++ " (not a folder)")))
      (s.recordAll ((ItemPath.downFrom [] path).flatMap ItemPath.lookups)) := by
  have hthere : s.tree.contains path = true := Tree.contains_iff.2 ⟨node, h⟩
  obtain ⟨parent, name, rfl, hn⟩ := wf.exists_parent hthere
  obtain ⟨rest, hrest⟩ := hpath
  have hwalk := resolveBelow_through server create rest hn hk parent.segments s [] parent.named
    (fun q hq => wf.holds_of_mem_downFrom hthere hq) h
  rw [List.append_cons, hrest] at hwalk
  exact hwalk.bind_error _

/-! An item is asked for where it cannot be: with any definitions, and whatever the server is told to fail. -/

theorem createFolder_unheld (server : JobServer) (name : String)
    (h : ¬ (scopePath scope = [] ∨ s.tree.holds (scopePath scope) = true)) :
    ∃ e s', s.Yields (server.createFolder scope name) (.error e) s' ∧ s'.tree = s.tree := by
  cases scope with
  | none => exact absurd (.inl rfl) h
  | some handle =>
    cases hr : server.templates.render .folder [] with
    | error e => exact ⟨e, s, (yields_definition hr s).bind_error _, rfl⟩
    | ok rendered =>
      -- the definition asks the server nothing, so the scope is still what it was
      have hask := s.yields_ask (.submitFolder handle.url name rendered.1 server.credentials)
      obtain ⟨_, hscope⟩ := exists_checkScope_error h
      obtain ⟨e, s', hsubmit, htree⟩ :=
        submitFolder_unheld (s := s.record (.createFolder ((pathOf handle.url).item name))) hscope name
      have hperform : s.perform (.submitFolder handle.url name rendered.1 server.credentials) = (.error e, s') :=
        hsubmit
      rw [hperform] at hask
      exact ⟨e, s', (yields_definition hr s).bind (hask.bind_error _), htree⟩

theorem createJob_unheld (server : JobServer) (wf : s.tree.WellFormed) (kind : TemplateKind) (hn : IsItemName name)
    (params : TemplateParams) (h : ¬ (scopePath scope = [] ∨ s.tree.holds (scopePath scope) = true)) :
    ∃ e s', s.Yields (server.createJob kind scope name params) (.error e) s' ∧ s'.tree = s.tree := by
  obtain ⟨_, hscope⟩ := exists_checkScope_error h
  have habsent : s.tree.contains (itemIn scope name) = false := absent_of_checkScope wf hscope
  obtain ⟨x, s', hy, hcases⟩ := createJob_replacement server wf kind scope hn params
  cases hcases with
  | refused hk => exact ⟨_, _, hy, rfl⟩
  | undeleted hk hf => exact ⟨_, _, hy, rfl⟩
  | unrendered hk hf hr =>
    -- the deletion had nothing to delete
    exact ⟨_, _, hy, wf.eraseBelow_of_absent (by simp [itemIn]) habsent⟩
  | unheld hk hf hr hno => exact ⟨_, _, hy, rfl⟩
  | made hk hf hr hold => exact absurd hold h

/-- **A plain job is a dead end.** -/
theorem deadEnd_of_job (wf : s.tree.WellFormed) (h : s.tree.get? path = some node) (hk : node.kind = .job) :
    s.DeadEnd path := by
  have hne : path ≠ [] := wf.ne_nil path (Tree.contains_iff.2 ⟨node, h⟩)
  refine ⟨?_, ?_, ?_, ?_⟩
  · intro below hb
    exact wf.contains_below_eq_false hne (Tree.holds_of_job h hk) hb
  · intro server folder create hpath
    exact resolve_through server wf h hk create hpath
  · intro server scope name hscope
    exact createFolder_unheld server name (unheld_of_job wf h hk hscope)
  · intro server kind scope name params hscope hn
    exact createJob_unheld server wf kind hn params (unheld_of_job wf h hk hscope)

/-- It stays one, whatever happens, for as long as it is there. -/
theorem deadEnd_follow (wf : s.tree.WellFormed) (h : s.tree.get? path = some node) (hk : node.kind = .job)
    {events : List Event} (hn : ∀ e ∈ events, ∀ name, e.newName? = some name → IsItemName name)
    (hkept : ∀ before, before <+: events → (s.follow before).tree.contains path = true) :
    (s.follow events).DeadEnd path := by
  obtain ⟨later, hlater, hcontinues⟩ := Keeps.follow ⟨node, h, .refl node⟩ hkept
  exact deadEnd_of_job (follow_wellFormed wf hn) hlater (hcontinues.kind_eq.trans hk)

/-! ## Which jobs are plain -/

/-- What is there after a job has been created. -/
theorem createJob_makes (hbuiltIn : server.templates = .builtIn) (wf : s.tree.WellFormed) (hn : IsItemName name)
    (h : s.Yields (server.createJob kind scope name params) (.ok job) s') :
    kind ≠ .folder ∧ job = ⟨scope, name⟩ ∧ s'.tree.WellFormed ∧
      s'.tree.get? (itemIn scope name) = some (.ofTemplate kind params s.triggeredResult) := by
  obtain ⟨x, s₁, hy, hcases⟩ := createJob_replacement server wf kind scope hn params
  obtain ⟨rfl, rfl⟩ := hy.unique h
  cases hcases with
  | made hk hf hr hholds =>
    cases (render_of_builtIn hbuiltIn kind params).symm.trans hr
    exact ⟨hk, rfl, wf.replace _ hholds hn, Tree.get?_insert_self _ _ _⟩

theorem folderView_made (hn : IsItemName name) (h : s.tree.get? (itemIn scope name) = some node) :
    ∃ view, s.Yields (Operation.ask (.folderView ⟨scope, name⟩)) (.ok view)
        (s.recordAll [.folderView (itemIn scope name)]) ∧ (view.isSome = true ↔ node.kind ≠ .job) := by
  have hpath : jobPath ⟨scope, name⟩ = itemIn scope name := ItemPath.item_eq hn _
  have hask := s.yields_ask (.folderView ⟨scope, name⟩)
  simp only [perform, answer, callOf, hpath, record_eq_recordAll, folderView_recordAll] at hask
  by_cases hk : node.kind = .job
  · rw [folderView_of_job h hk] at hask
    exact ⟨none, hask, by simp [hk]⟩
  · rw [folderView_of_holder h hk] at hask
    exact ⟨_, hask, by simp [hk]⟩

/-- The kinds of items that definitions make. -/
theorem ofTemplate_kind_ne_job_iff (hk : kind ≠ .folder) (triggered : Option BuildResult) :
    (Node.ofTemplate kind params triggered).kind ≠ .job ↔ kind = .multibranch ∨ params.Marked kind := by
  rw [← TemplateKind.kindOfDefinition_builtIn hk, Node.ofTemplate]
  have hno := kindOfDefinition_ne_folder (substitute kind.builtIn params)
  cases hkind : kindOfDefinition (substitute kind.builtIn params) <;> simp_all

/-- **The jobs that can be seen as folders**, of those created from the built-in definitions, are the multibranch
pipelines and those with the mark in their script or command. Any other is a dead end for as long as it is there. -/
theorem createJob_folderView (hbuiltIn : server.templates = .builtIn) (wf : s.tree.WellFormed) (hn : IsItemName name)
    (h : s.Yields (server.createJob kind scope name params) (.ok job) s') :
    (∃ view, s'.Yields (Operation.ask (.folderView job)) (.ok view)
        (s'.recordAll [.folderView (itemIn scope name)]) ∧
      (view.isSome = true ↔ kind = .multibranch ∨ params.Marked kind)) ∧
    (kind ≠ .multibranch → ¬ params.Marked kind → ∀ events : List Event,
      (∀ e ∈ events, ∀ new, e.newName? = some new → IsItemName new) →
      (∀ before, before <+: events → (s'.follow before).tree.contains (itemIn scope name) = true) →
      (s'.follow events).DeadEnd (itemIn scope name)) := by
  obtain ⟨hk, rfl, wf', hnode⟩ := createJob_makes hbuiltIn wf hn h
  constructor
  · obtain ⟨view, hview, hsome⟩ := folderView_made hn hnode
    exact ⟨view, hview, hsome.trans (ofTemplate_kind_ne_job_iff hk _)⟩
  · intro hmultibranch hmarked events hnames hkept
    have hplain : (Node.ofTemplate kind params s.triggeredResult).kind = .job := by
      by_contra hno
      exact ((ofTemplate_kind_ne_job_iff hk _).1 hno).elim hmultibranch hmarked
    exact deadEnd_follow wf' hnode hplain hnames hkept

/-- A command that almost has the mark. -/
def nearMark : TemplateParams := [("command", "echo WorkflowMultiBranch Project \x7b\x7bcommand\x7d\x7d")]

theorem createJob_folderView_nearMark :
    (ofUrl Memory.baseUrl).templates = .builtIn ∧ branched.tree.WellFormed ∧ IsItemName "app" ∧
      ∃ job s', branched.Yields ((ofUrl Memory.baseUrl).createJob .freestyle (scopeOf ["team A"]) "app" nearMark)
          (.ok job) s' ∧
        (∃ view, s'.Yields (Operation.ask (.folderView job)) (.ok view)
          (s'.recordAll [.folderView ["team A", "app"]]) ∧ view.isSome = false) ∧
        (s'.follow [.raceFolder "ci"]).DeadEnd ["team A", "app"] := by
  have wf : branched.tree.WellFormed := by decide
  have hn : IsItemName "app" := by decide
  have ha : ItemPath.Named ["team A"] := by decide
  have hpath : itemIn (scopeOf ["team A"]) "app" = ["team A", "app"] := by
    rw [itemIn, scopePath_scopeOf ha]
    rfl
  have hmarked : ¬ nearMark.Marked .freestyle := by decide
  have hcreate := createJob_yields inMemory_ofUrl (by decide : TemplateKind.freestyle ≠ .folder) nearMark ha hn wf
    (.inr (by decide)) (by decide)
  have hthere := Tree.contains_iff.2 ⟨_, (createJob_makes rfl wf hn hcreate).2.2.2⟩
  obtain ⟨⟨view, hview, hsome⟩, hdead⟩ :=
    createJob_folderView (rfl : (ofUrl Memory.baseUrl).templates = .builtIn) wf hn hcreate
  rw [hpath] at hview hdead hthere
  refine ⟨rfl, wf, hn, _, _, hcreate, ⟨view, hview, ?_⟩, hdead (by decide) hmarked _ ?_ ?_⟩
  · rw [← Bool.not_eq_true, hsome]
    exact not_or.2 ⟨by decide, hmarked⟩
  · rintro e he new hnew
    rw [List.mem_singleton.1 he] at hnew
    cases hnew
  · intro before hbefore
    rcases List.prefix_cons_iff.1 hbefore with rfl | ⟨rest, rfl, hrest⟩
    · exact hthere
    · rw [List.prefix_nil.1 hrest]
      exact hthere

/-- A pipeline with the mark in its script is seen as a folder. -/
theorem not_only_multibranch : ¬ ∀ (s s' s'' : Server) (kind : TemplateKind) (folder : FolderPath) (name : String)
    (params : TemplateParams) (job : JobRef) (view : Option FolderView), s.tree.WellFormed → IsItemName name →
    s.Yields ((ofUrl Memory.baseUrl).createJob kind folder.handle? name params) (.ok job) s' →
    s'.Yields (Operation.ask (.folderView job)) (.ok view) s'' → (view.isSome = true ↔ kind = .multibranch) := by
  intro h
  let params : TemplateParams := [("script", "echo 'WorkflowMultiBranchProject'")]
  have wf : Server.empty.tree.WellFormed := Tree.wellFormed_empty
  have hn : IsItemName "build" := by decide
  have hk : TemplateKind.pipeline ≠ .folder := by decide
  have hcreate := createJob_yields (s := Server.empty) inMemory_ofUrl hk params (by decide : ItemPath.Named []) hn wf
    (.inl rfl) rfl
  obtain ⟨-, -, -, hnode⟩ := createJob_makes rfl wf hn hcreate
  obtain ⟨view, hview, hsome⟩ := folderView_made hn hnode
  have hmarked : params.Marked .pipeline := by decide
  have hseen := hsome.2 ((ofTemplate_kind_ne_job_iff hk _).2 (.inr hmarked))
  have hmultibranch := (h _ _ _ .pipeline .topLevel "build" params _ view wf hn hcreate hview).1 hseen
  cases hmultibranch

end JobServer

end JobHierarchy
