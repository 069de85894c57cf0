import JobHierarchy.Proofs.Alterations
import JobHierarchy.Proofs.Items
/-!
# What creating a job can come to

Creating a job deletes what has its name, renders its definition, asks for the job and, for some kinds, for a first
build. It can stop at any of these but the last (`JobServer.Replacement`, `JobServer.createJob_replacement`).

With the built-in definitions it stops only where a deletion is made to fail or the scope can hold no items; else the
job is there in the place of what had its name, and nothing else is changed (`JobServer.createJob_replaces`). Where it
stops, the items are as they were, since an item of that name was not there in the first place if the scope can hold
none (`JobServer.createJob_fails`). The exception is a definition that cannot be rendered: it is looked for when the
old job is gone already (`JobServer.not_kept_by_failure`).
-/

namespace JobHierarchy

namespace TemplateSource

variable {source : TemplateSource} {kind : TemplateKind}

/-- Why the template of a kind cannot be read, where there is a file for it that cannot. -/
def fault? : TemplateSource → TemplateKind → Option FileFault
  | .builtIn, _ => none
  | .directory _ read, kind =>
    match read kind.fileName with
    | .error .notFound => none
    | .error fault => some fault
    | .ok _ => none

theorem render_of_fault? {fault : FileFault} (h : source.fault? kind = some fault) (params : TemplateParams) :
    source.render kind params = .error (.io fault) := by
  cases source with
  | builtIn => cases h
  | directory path read =>
    simp only [fault?] at h
    split at h
    · cases h
    · next e hne hread =>
      cases h
      simp only [render, template, hread]
      rfl
    · cases h

theorem exists_render (h : source.fault? kind = none) (params : TemplateParams) :
    ∃ definition events, source.render kind params = .ok (definition, events) := by
  cases source with
  | builtIn => exact ⟨_, _, rfl⟩
  | directory path read =>
    simp only [fault?] at h
    split at h
    · next hread =>
      exact ⟨_, _, by simp only [render, template, hread]; rfl⟩
    · cases h
    · next text hread => exact ⟨_, _, by simp only [render, template, hread]; rfl⟩

end TemplateSource

namespace Memory.Server

variable {s : Server} {above : ItemPath} {name : String} {scope : Option FolderHandle}

/-! ## Scopes that can hold no items -/

/-- A scope that can hold no items has none. -/
theorem absent_of_checkScope (wf : s.tree.WellFormed) {e : Error} (h : s.checkScope above = .error e) :
    s.tree.contains (above ++ [name]) = false := by
  have hno : ¬ (above = [] ∨ s.tree.holds above = true) := by
    intro hold
    rw [checkScope_ok hold] at h
    cases h
  obtain ⟨htop, hholds⟩ := not_or.1 hno
  exact wf.contains_below_eq_false htop (Bool.eq_false_iff.2 hholds) (List.cons_ne_nil name [])

theorem yields_createJob_failing (s : Server) (hs : scopePath scope = above) (hn : IsItemName name) {e : Error}
    (h : s.checkScope above = .error e) (definition : String) :
    s.Yields (Operation.ask (.createJob scope name definition)) (.error e)
      (s.recordAll [.createJob (above ++ [name])]) := by
  have hask := s.yields_ask (.createJob scope name definition)
  have hscope : (s.recordAll [.createJob (above ++ [name])]).checkScope above = .error e := h
  simp only [perform_createJob s hs hn, createJob, insertItem, hscope, bind, Except.bind] at hask
  exact hask

end Memory.Server

namespace JobServer

open Memory Memory.Server

variable {server : JobServer} {s s' : Server} {kind : TemplateKind} {scope : Option FolderHandle} {name : String}
  {params : TemplateParams}

/-- The path of the item `name` in a scope. -/
def itemIn (scope : Option FolderHandle) (name : String) : ItemPath := scopePath scope ++ [name]

/-- What creating a job can come to, step by step. -/
inductive Replacement (server : JobServer) (s : Server) (kind : TemplateKind) (scope : Option FolderHandle)
    (name : String) (params : TemplateParams) : Except Error JobRef → Server → Prop where
  /-- No folder is created in this way. -/
  | refused (hk : kind = .folder) :
    Replacement server s kind scope name params (.error (.unsupported "folders are created with create_folder")) s
  /-- What had the name could not be deleted. -/
  | undeleted {status : Nat} (hk : kind ≠ .folder) (hf : s.deleteFailures.lookup (itemIn scope name) = some status) :
    Replacement server s kind scope name params
      (.error (.transport (some status) ("cannot delete " ++ (itemIn scope name).display)))
      (s.recordAll [.deleteJob (itemIn scope name)])
  /-- It was deleted, and then the definition could not be rendered. -/
  | unrendered {e : Error} (hk : kind ≠ .folder) (hf : s.deleteFailures.lookup (itemIn scope name) = none)
    (hr : server.templates.render kind params = .error e) :
    Replacement server s kind scope name params (.error e)
      ((s.recordAll [.deleteJob (itemIn scope name)]).withTree (s.tree.eraseBelow (itemIn scope name)))
  /-- There was nothing to delete, and there is no room for the job. -/
  | unheld {definition : String} {events : List LogEvent} {e : Error} (hk : kind ≠ .folder)
    (hf : s.deleteFailures.lookup (itemIn scope name) = none)
    (hr : server.templates.render kind params = .ok (definition, events))
    (hscope : s.checkScope (scopePath scope) = .error e) :
    Replacement server s kind scope name params (.error e)
      (s.recordAll [.deleteJob (itemIn scope name), .createJob (itemIn scope name)])
  /-- The job is there. -/
  | made {definition : String} {events : List LogEvent} (hk : kind ≠ .folder)
    (hf : s.deleteFailures.lookup (itemIn scope name) = none)
    (hr : server.templates.render kind params = .ok (definition, events))
    (hscope : scopePath scope = [] ∨ s.tree.holds (scopePath scope) = true) :
    Replacement server s kind scope name params (.ok ⟨scope, name⟩)
      ((s.recordAll (replaceCalls kind (itemIn scope name))).withTree
        (s.tree.replace (itemIn scope name) (.ofDefinition kind definition s.triggeredResult)))

/-- **Creating a job comes to one of these**, whatever the scope and the templates are. -/
theorem createJob_replacement (server : JobServer) (wf : s.tree.WellFormed) (kind : TemplateKind)
    (scope : Option FolderHandle) (hn : IsItemName name) (params : TemplateParams) :
    ∃ x s', s.Yields (server.createJob kind scope name params) x s' ∧
      Replacement server s kind scope name params x s' := by
  by_cases hk : kind = .folder
  · refine ⟨_, _, ?_, .refused hk⟩
    rw [createJob, if_pos hk]
    exact (yields_throw _ _).bind_error _
  cases hf : s.deleteFailures.lookup (itemIn scope name) with
  | some status =>
    refine ⟨_, _, ?_, .undeleted hk hf⟩
    rw [createJob, if_neg hk]
    exact (deleteItem_failing "job" rfl hn hf).bind_error _
  | none =>
    have hdelete := deleteItem_yields "job" rfl hn wf hf
    cases hr : server.templates.render kind params with
    | error e =>
      refine ⟨_, _, ?_, .unrendered hk hf hr⟩
      rw [createJob, if_neg hk]
      exact hdelete.bind ((yields_definition hr _).bind_error _)
    | ok rendered =>
      cases hscope : s.checkScope (scopePath scope) with
      | ok _ => exact ⟨_, _, createJob_rendered hk hr rfl hn wf (checkScope_eq_ok hscope) hf,
          .made hk hf hr (checkScope_eq_ok hscope)⟩
      | error e =>
        refine ⟨_, _, ?_, .unheld hk hf hr hscope⟩
        -- the deletion has found nothing
        rw [wf.eraseBelow_of_absent (by simp) (absent_of_checkScope wf hscope)] at hdelete
        have hcreate := yields_createJob_failing (s.recordAll [.deleteJob (itemIn scope name)]) rfl hn hscope rendered.1
        rw [recordAll_recordAll] at hcreate
        rw [createJob, if_neg hk]
        exact hdelete.bind ((yields_definition hr _).bind (hcreate.bind_error _))

/-! ## Built-in definitions -/

theorem triggersInitialBuild_iff {kind : TemplateKind} : kind.triggersInitialBuild = true ↔ kind = .multibranch := by
  cases kind <;> decide

/-- **Creating a job replaces what has its name**, and nothing else, if the item can be deleted and the scope can hold
it; where a folder has been deleted since its handle was made, it cannot. -/
theorem createJob_replaces (hbuiltIn : server.templates = .builtIn) (wf : s.tree.WellFormed) (kind : TemplateKind)
    (folder : FolderPath) (hn : IsItemName name) (params : TemplateParams) :
    ∃ x s', s.Yields (server.createJob kind folder.handle? name params) x s' ∧
      (kind = .folder → x = .error (.unsupported "folders are created with create_folder") ∧ s' = s) ∧
      (kind ≠ .folder →
        ((∃ job, x = .ok job) ↔ s.deleteFailures.lookup (folder.segments ++ [name]) = none ∧
          (folder.segments = [] ∨ s.tree.holds folder.segments = true)) ∧
        ∀ job, x = .ok job → job = ⟨folder.handle?, name⟩ ∧
          (∀ q, s'.tree.get? q =
            if q = folder.segments ++ [name] then some {
              kind := kindOfDefinition (substitute kind.builtIn params)
              definition := some (substitute kind.builtIn params)
              builds := if kind = .multibranch then [s.triggeredResult] else [] }
            else if folder.segments ++ [name] <+: q then none else s.tree.get? q) ∧
          s'.calls.toList = s.calls.toList ++
            [.deleteJob (folder.segments ++ [name]), .createJob (folder.segments ++ [name])] ++
              if kind = .multibranch then [.triggerBuild (folder.segments ++ [name])] else []) := by
  have hscope : scopePath folder.handle? = folder.segments := by
    rw [folder.handle?_eq, scopePath_scopeOf folder.named]
  have hpath : itemIn folder.handle? name = folder.segments ++ [name] := by rw [itemIn, hscope]
  have hrender : server.templates.render kind params = .ok (substitute kind.builtIn params, []) := by
    rw [hbuiltIn]
    rfl
  obtain ⟨x, s', hy, hcases⟩ := createJob_replacement server wf kind folder.handle? hn params
  refine ⟨x, s', hy, ?_⟩
  cases hcases with
  | refused hk => exact ⟨fun _ => ⟨rfl, rfl⟩, fun hno => absurd hk hno⟩
  | undeleted hk hf =>
    refine ⟨fun h => absurd h hk, fun _ => ⟨⟨?_, ?_⟩, ?_⟩⟩
    · rintro ⟨job, hjob⟩
      cases hjob
    · rintro ⟨hnone, -⟩
      rw [hpath, hnone] at hf
      cases hf
    · intro job hjob
      cases hjob
  | unrendered hk hf hr =>
    rw [hrender] at hr
    cases hr
  | unheld hk hf hr hno =>
    refine ⟨fun h => absurd h hk, fun _ => ⟨⟨?_, ?_⟩, ?_⟩⟩
    · rintro ⟨job, hjob⟩
      cases hjob
    · rintro ⟨-, hholds⟩
      rw [hscope, checkScope_ok hholds] at hno
      cases hno
    · intro job hjob
      cases hjob
  | made hk hf hr hholds =>
    rw [hrender] at hr
    cases hr
    rw [hpath] at hf ⊢
    rw [hscope] at hholds
    refine ⟨fun h => absurd h hk, fun _ => ⟨⟨fun _ => ⟨hf, hholds⟩, fun _ => ⟨_, rfl⟩⟩, ?_⟩⟩
    intro job hjob
    cases hjob
    refine ⟨rfl, fun q => ?_, ?_⟩
    · simp only [withTree_tree, Tree.get?_replace, Node.ofDefinition, triggersInitialBuild_iff]
    · simp [withTree, recordAll, replaceCalls, triggersInitialBuild_iff]

/-- A multi-branch pipeline with a branch, and beside it a job whose name begins like its name. -/
def branched : Server :=
  { Server.empty with
    tree := (((Tree.empty.insert ["team A"] (.ofKind .folder)).insert ["team A", "app"] (.ofKind .container)).insert
      ["team A", "app", "main"] ⟨.job, some "old", [some .success]⟩).insert ["team A", "app2"] (.ofKind .job)
    deleteFailures := [(["app"], 500)]
    triggeredResult := some .failure }

theorem createJob_replaces_branched :
    (ofUrl Memory.baseUrl).templates = .builtIn ∧ branched.tree.WellFormed ∧ IsItemName "app" ∧
      ∃ s', branched.Yields
          ((ofUrl Memory.baseUrl).createJob .multibranch (some (handleOf ["team A"])) "app" [("repo", "new")])
          (.ok ⟨some (handleOf ["team A"]), "app"⟩) s' ∧
        (∃ node, s'.tree.get? ["team A", "app"] = some node ∧
          node.definition = some (substitute TemplateKind.multibranch.builtIn [("repo", "new")]) ∧
          node.builds = [some .failure]) ∧
        s'.tree.get? ["team A", "app", "main"] = none ∧ s'.tree.get? ["team A", "app2"] = some (.ofKind .job) ∧
        s'.calls.toList =
          [.deleteJob ["team A", "app"], .createJob ["team A", "app"], .triggerBuild ["team A", "app"]] := by
  have wf : branched.tree.WellFormed := by decide
  have hn : IsItemName "app" := by decide
  let folder : FolderPath := ⟨["team A"], by decide⟩
  obtain ⟨x, s', hy, -, hmade⟩ :=
    createJob_replaces (rfl : (ofUrl Memory.baseUrl).templates = .builtIn) wf .multibranch folder hn [("repo", "new")]
  obtain ⟨hiff, hjob⟩ := hmade (by decide)
  obtain ⟨job, rfl⟩ := hiff.2 ⟨by decide, .inr (by decide)⟩
  obtain ⟨rfl, htree, hcalls⟩ := hjob job rfl
  refine ⟨rfl, wf, hn, s', hy, ⟨_, (htree _).trans (if_pos rfl), rfl, rfl⟩, ?_, ?_, hcalls⟩
  · rw [htree]
    decide
  · rw [htree]
    decide

/-! ## Failures -/

/-- **Where creating a job fails**, all items are as they were, unless it fails for the template: then what had the name
is gone, with all that was in it. -/
theorem createJob_fails {e : Error} (wf : s.tree.WellFormed) (hn : IsItemName name)
    (h : s.Yields (server.createJob kind scope name params) (.error e) s') :
    (kind = .folder ∨ (∃ status, s.deleteFailures.lookup (itemIn scope name) = some status) ∨
      server.templates.fault? kind = none → s'.tree = s.tree) ∧
    ∀ fault, kind ≠ .folder → s.deleteFailures.lookup (itemIn scope name) = none →
      server.templates.fault? kind = some fault →
      e = .io fault ∧ ∀ q, s'.tree.get? q = if itemIn scope name <+: q then none else s.tree.get? q := by
  obtain ⟨x, s₁, hy, hcases⟩ := createJob_replacement server wf kind scope hn params
  obtain ⟨rfl, rfl⟩ := h.unique hy
  cases hcases with
  | refused hk => exact ⟨fun _ => rfl, fun _ hno => absurd hk hno⟩
  | undeleted hk hf =>
    refine ⟨fun _ => rfl, fun _ _ hnone => ?_⟩
    rw [hnone] at hf
    cases hf
  | unrendered hk hf hr =>
    refine ⟨?_, fun fault _ _ hfault => ?_⟩
    · rintro (hfolder | ⟨status, hstatus⟩ | hnone)
      · exact absurd hfolder hk
      · rw [hf] at hstatus
        cases hstatus
      · obtain ⟨definition, events, hok⟩ := TemplateSource.exists_render hnone params
        rw [hok] at hr
        cases hr
    · rw [TemplateSource.render_of_fault? hfault] at hr
      cases hr
      exact ⟨rfl, Tree.get?_eraseBelow _ _⟩
  | unheld hk hf hr hno =>
    refine ⟨fun _ => rfl, fun fault _ _ hfault => ?_⟩
    rw [TemplateSource.render_of_fault? hfault] at hr
    cases hr

/-- A directory of templates in which there is a directory where a file is looked for. -/
def brokenFiles : FileView := (FileTree.ofList [("templates/pipeline.xml/", "")]).view ""

def brokenServer : JobServer where
  baseUrl := Memory.baseUrl
  templates := .directory "templates" fun name => brokenFiles.read (FileView.entry "templates" name)
  credentials := none

theorem openDirectory_brokenFiles :
    TemplateSource.openDirectory brokenFiles "templates" = .ok brokenServer.templates := by
  rw [TemplateSource.openDirectory, if_pos (by decide +kernel)]
  rfl

/-- A job that has been built. -/
def built : Server :=
  { Server.empty with
    tree := (Tree.empty.insert ["ci"] (.ofKind .folder)).insert ["ci", "nightly"] ⟨.job, some "old", [some .success]⟩ }

/-- The same job, which cannot be deleted. -/
def guarded : Server := { built with deleteFailures := [(["ci", "nightly"], 503)] }

theorem createJob_broken :
    built.Yields (brokenServer.createJob .pipeline (some (handleOf ["ci"])) "nightly" [("script", "make")])
      (.error (.io .isDirectory))
      ((built.recordAll [.deleteJob ["ci", "nightly"]]).withTree (built.tree.eraseBelow ["ci", "nightly"])) := by
  have hfault : brokenServer.templates.fault? .pipeline = some .isDirectory := by decide +kernel
  have hscope : scopePath (some (handleOf ["ci"])) = ["ci"] := pathOf_urlOf (by decide)
  have hdelete := deleteItem_yields (s := built) "job" hscope (by decide : IsItemName "nightly") (by decide) rfl
  rw [createJob, if_neg (by decide)]
  exact hdelete.bind ((yields_definition (TemplateSource.render_of_fault? hfault _) _).bind_error _)

theorem createJob_fails_broken :
    TemplateSource.openDirectory brokenFiles "templates" = .ok brokenServer.templates ∧ built.tree.WellFormed ∧
      IsItemName "nightly" ∧
      (∃ s', built.Yields (brokenServer.createJob .pipeline (some (handleOf ["ci"])) "nightly" [("script", "make")])
          (.error (.io .isDirectory)) s' ∧
        s'.tree.get? ["ci"] = some (.ofKind .folder) ∧ s'.tree.get? ["ci", "nightly"] = none) ∧
      ∃ s', guarded.Yields (brokenServer.createJob .pipeline (some (handleOf ["ci"])) "nightly" [("script", "make")])
          (.error (.transport (some 503) "cannot delete ci/nightly")) s' ∧
        s'.tree = guarded.tree := by
  have wf : built.tree.WellFormed := by decide
  have hn : IsItemName "nightly" := by decide
  have hscope : scopePath (some (handleOf ["ci"])) = ["ci"] := pathOf_urlOf (by decide)
  have hpath : itemIn (some (handleOf ["ci"])) "nightly" = ["ci", "nightly"] := by rw [itemIn, hscope]; rfl
  refine ⟨openDirectory_brokenFiles, wf, hn, ⟨_, createJob_broken, ?_⟩, ?_⟩
  · obtain ⟨-, hbelow⟩ := (createJob_fails wf hn createJob_broken).2 .isDirectory (by decide) rfl (by decide +kernel)
    rw [hpath] at hbelow
    exact ⟨(hbelow _).trans (by decide), (hbelow _).trans (by decide)⟩
  · have hfails : guarded.Yields
        (brokenServer.createJob .pipeline (some (handleOf ["ci"])) "nightly" [("script", "make")])
        (.error (.transport (some 503) "cannot delete ci/nightly"))
        (guarded.recordAll [.deleteJob ["ci", "nightly"]]) := by
      rw [createJob, if_neg (by decide)]
      exact (deleteItem_failing "job" hscope hn rfl).bind_error _
    have wf' : guarded.tree.WellFormed := wf
    exact ⟨_, hfails, (createJob_fails wf' hn hfails).1 (.inr (.inl ⟨503, by rw [hpath]; rfl⟩))⟩

/-- A job does not always outlast the failure to replace it. -/
theorem not_kept_by_failure : ¬ ∀ (server : JobServer) (s s' : Server) (kind : TemplateKind)
    (scope : Option FolderHandle) (name : String) (params : TemplateParams) (e : Error), s.tree.WellFormed →
    IsItemName name → s.Yields (server.createJob kind scope name params) (.error e) s' → s'.tree = s.tree := by
  intro h
  have hsame := h brokenServer built _ .pipeline _ "nightly" _ _ (by decide) (by decide) createJob_broken
  exact absurd (congrArg (·.contains ["ci", "nightly"]) hsame) (by decide)

end JobServer

end JobHierarchy
