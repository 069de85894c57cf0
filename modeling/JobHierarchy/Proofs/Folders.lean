import JobHierarchy.Proofs.Walks
/-!
# Asking for a folder

A folder is asked for by a request that can fail on purpose, find the name taken, or succeed while
reporting a failure (a race). Whatever it reports, looking the folder up afterwards tells whether it
is there, and that is what counts (`createAndFind_yields_new`).
-/

namespace JobHierarchy

namespace Memory.Server

variable {s : Server} {scope : ItemPath} {name : String}

/-! ## The request -/

theorem checkScope_ok (h : scope = [] ∨ s.tree.holds scope = true) : s.checkScope scope = .ok () := by
  unfold checkScope
  by_cases hs : scope = []
  · rw [if_pos hs]
  · obtain ⟨node, hn, hk⟩ := Tree.holds_iff.1 (h.resolve_left hs)
    simp only [if_neg hs, hn, if_neg hk]

/-- An item in a scope that can hold it, under a name that is free. -/
theorem insertItem_new (node : Node) (h : scope = [] ∨ s.tree.holds scope = true) (hn : IsItemName name)
    (hnew : s.tree.contains (scope ++ [name]) = false) :
    s.insertItem scope name node = .ok (s.tree.insert (scope ++ [name]) node) := by
  unfold insertItem
  simp only [checkScope_ok h, ItemPath.item_eq hn, hnew]
  rfl

theorem insertItem_taken (node : Node) (h : scope = [] ∨ s.tree.holds scope = true) (hn : IsItemName name)
    (htaken : s.tree.contains (scope ++ [name]) = true) :
    s.insertItem scope name node = .error (nameTaken name) := by
  unfold insertItem
  simp only [checkScope_ok h, ItemPath.item_eq hn, htaken]
  rfl

/-- The server without races about `path`. -/
def withoutRace (s : Server) (path : ItemPath) : Server := { s with racing := s.racing.filter (· != path) }

/-- The server with a new folder, and the race about it over. -/
def withFolder (s : Server) (path : ItemPath) : Server :=
  { s.withoutRace path with tree := s.tree.insert path (.ofKind .folder) }

theorem submitFolder_failing {status : Nat} (hn : IsItemName name)
    (h : s.folderFailures.lookup (scope ++ [name]) = some status) :
    s.submitFolder scope name =
      (.error (.transport (some status) ("cannot create " ++ (scope ++ [name]).display)), s) := by
  unfold submitFolder
  simp only [ItemPath.item_eq hn, h]

theorem submitFolder_new (hn : IsItemName name) (hf : s.folderFailures.lookup (scope ++ [name]) = none)
    (h : scope = [] ∨ s.tree.holds scope = true) (hnew : s.tree.contains (scope ++ [name]) = false) :
    s.submitFolder scope name =
      (if s.racing.contains (scope ++ [name]) then .error (nameTaken name) else .ok (),
        s.withFolder (scope ++ [name])) := by
  have hins : (s.withoutRace (scope ++ [name])).insertItem scope name (.ofKind .folder) =
      .ok (s.tree.insert (scope ++ [name]) (.ofKind .folder)) := insertItem_new _ h hn hnew
  unfold withoutRace at hins
  unfold submitFolder
  simp only [ItemPath.item_eq hn, hf, hins]
  rfl

theorem submitFolder_taken (hn : IsItemName name) (hf : s.folderFailures.lookup (scope ++ [name]) = none)
    (h : scope = [] ∨ s.tree.holds scope = true) (htaken : s.tree.contains (scope ++ [name]) = true) :
    s.submitFolder scope name = (.error (nameTaken name), s.withoutRace (scope ++ [name])) := by
  have hins : (s.withoutRace (scope ++ [name])).insertItem scope name (.ofKind .folder) =
      .error (nameTaken name) := insertItem_taken _ h hn htaken
  unfold withoutRace at hins
  unfold submitFolder
  simp only [ItemPath.item_eq hn, hf, hins]
  rfl

theorem perform_submitFolder (ha : scope.Named) (hn : IsItemName name) (definition : String)
    (credentials : Option Credentials) :
    s.perform (.submitFolder (urlOf scope) name definition credentials) =
      (s.recordAll [.createFolder (scope ++ [name])]).submitFolder scope name := by
  simp only [perform, answer, callOf, pathOf_urlOf ha, ItemPath.item_eq hn, record_eq_recordAll]

end Memory.Server

/-- A server as the in-memory server knows it: at its URL, with the built-in definitions. -/
structure JobServer.InMemory (server : JobServer) : Prop where
  url : server.baseUrl = Memory.baseUrl
  builtIn : server.templates = .builtIn

theorem JobServer.inMemory_ofUrl : (JobServer.ofUrl Memory.baseUrl).InMemory := ⟨by decide, rfl⟩

namespace JobServer

open Memory Memory.Server

variable {server : JobServer} {s s' : Server} {above : ItemPath} {name : String}

/-! ## The operation -/

/-- Built-in definitions are found without a request and without a word. -/
theorem definition_eq (hm : server.InMemory) (kind : TemplateKind) (params : TemplateParams) :
    server.definition kind params = pure (substitute kind.builtIn params) := by
  unfold definition
  rw [hm.builtIn]
  rfl

theorem childFolder_of_url (hb : server.baseUrl = Memory.baseUrl) :
    server.childFolder (scopeOf above) name = handleOf (above ++ [name]) := by
  rw [childFolder, hb, itemUrl_scopeOf, ofUrl_urlOf]

theorem childFolder_eq (hm : server.InMemory) :
    server.childFolder (scopeOf above) name = handleOf (above ++ [name]) := childFolder_of_url hm.url

theorem createFolder_yields (hm : server.InMemory) (ha : above.Named) (hn : IsItemName name) {x : Except Error Unit}
    (h : (s.recordAll [.createFolder (above ++ [name])]).submitFolder above name = (x, s')) :
    s.Yields (server.createFolder (scopeOf above) name) (x.map fun _ => handleOf (above ++ [name])) s' := by
  have hask := s.yields_ask
    (.submitFolder (urlOf above) name (substitute TemplateKind.folder.builtIn []) server.credentials)
  rw [perform_submitFolder ha hn, h] at hask
  unfold createFolder
  rw [hm.url, scopeUrl_scopeOf, childFolder_eq hm, definition_eq hm, pure_bind]
  cases x with
  | ok _ => exact hask.bind ((yields_report _ _ _).bind (yields_pure _ _))
  | error e => exact hask.bind_error _

/-- Asking for a missing folder and looking it up finds it, raced or not. -/
theorem createAndFind_yields_new (hm : server.InMemory) (ha : above.Named) (hn : IsItemName name)
    (hf : s.folderFailures.lookup (above ++ [name]) = none)
    (h : above = [] ∨ s.tree.holds above = true) (hnew : s.tree.contains (above ++ [name]) = false) :
    s.Yields (server.createAndFind (scopeOf above) name) (.ok ⟨scopeOf above, name⟩)
      ((s.withFolder (above ++ [name])).recordAll [.createFolder (above ++ [name]), .getJob (above ++ [name])]) := by
  let s₁ := (s.withFolder (above ++ [name])).recordAll [.createFolder (above ++ [name])]
  have hthere : s₁.tree.contains (above ++ [name]) = true :=
    Tree.contains_iff.2 ⟨_, Tree.get?_insert_self _ _ _⟩
  have hsub := submitFolder_new (s := s.recordAll [.createFolder (above ++ [name])]) hn hf h hnew
  generalize (if (s.recordAll [.createFolder (above ++ [name])]).racing.contains (above ++ [name]) = true then
    .error (nameTaken name) else .ok () : Except Error Unit) = reported at hsub
  have hattempt := createFolder_yields hm ha hn hsub
  have hget := s₁.yields_getJob ha hn
  rw [if_pos hthere, recordAll_recordAll] at hget
  rw [createAndFind]
  -- a failure that was reported is only logged
  refine hattempt.outcome.bind (hget.bind ?_)
  cases reported with
  | ok _ => exact yields_pure _ _
  | error e => exact (yields_report _ _ _).bind (yields_pure _ _)

/-- A folder that could not be made and is not there: the failure counts. -/
theorem createAndFind_yields_failing (hm : server.InMemory) (ha : above.Named) (hn : IsItemName name) {status : Nat}
    (hf : s.folderFailures.lookup (above ++ [name]) = some status) (hnew : s.tree.contains (above ++ [name]) = false) :
    s.Yields (server.createAndFind (scopeOf above) name)
      (.error (.transport (some status) ("cannot create " ++ (above ++ [name]).display)))
      (s.recordAll [.createFolder (above ++ [name]), .getJob (above ++ [name])]) := by
  have hsub := submitFolder_failing (s := s.recordAll [.createFolder (above ++ [name])]) hn hf
  have hattempt := createFolder_yields hm ha hn hsub
  have hget := (s.recordAll [.createFolder (above ++ [name])]).yields_getJob ha hn
  rw [recordAll_tree, hnew, if_neg Bool.false_ne_true, recordAll_recordAll] at hget
  rw [createAndFind]
  exact hattempt.outcome.bind (hget.bind (yields_throw _ _))

end JobServer

end JobHierarchy
