import JobHierarchy.Lifecycle
import JobHierarchy.Proofs.Folders
/-!
# Deleting and replacing items

Where no deletion is made to fail, deleting an item leaves a tree without it and all that was in it, whether
or not it was there (`deleteItem_erases`). Creating a job so replaces what had its name: afterwards there is
the job with its definition, and with one build if its kind is built at once (`createJob_rendered`, and
`createJob_yields` for the built-in definitions).
-/

namespace JobHierarchy

namespace Memory

/-- The item that a definition of a kind makes. -/
def Node.ofDefinition (kind : TemplateKind) (definition : String) (triggered : Option BuildResult) : Node where
  kind := Server.kindOfDefinition definition
  definition := some definition
  builds := if kind.triggersInitialBuild then [triggered] else []

/-- The item that a template makes. -/
def Node.ofTemplate (kind : TemplateKind) (params : TemplateParams) (triggered : Option BuildResult) : Node where
  kind := Server.kindOfDefinition (substitute kind.builtIn params)
  definition := some (substitute kind.builtIn params)
  builds := if kind.triggersInitialBuild then [triggered] else []

theorem Node.ofDefinition_builtIn (kind : TemplateKind) (params : TemplateParams) (triggered : Option BuildResult) :
    Node.ofDefinition kind (substitute kind.builtIn params) triggered = .ofTemplate kind params triggered := rfl

theorem Server.kindOfDefinition_ne_folder (definition : String) : Server.kindOfDefinition definition ≠ .folder := by
  unfold Server.kindOfDefinition
  split <;> decide

namespace Tree

variable {tree : Tree} {path q : ItemPath} {node : Node}

/-- The tree with a new item in place of an old one and all that was in it. -/
def replace (tree : Tree) (path : ItemPath) (node : Node) : Tree := (tree.eraseBelow path).insert path node

theorem get?_replace (tree : Tree) (path q : ItemPath) (node : Node) : (tree.replace path node).get? q =
    if q = path then some node else if path <+: q then none else tree.get? q := by
  rw [replace, get?_insert, get?_eraseBelow]

theorem contains_eraseBelow_self (tree : Tree) (path : ItemPath) : (tree.eraseBelow path).contains path = false := by
  rw [contains_eq_false_iff, get?_eraseBelow, if_pos List.prefix_rfl]

/-- A scope loses nothing when an item in it is erased. -/
theorem holds_eraseBelow {scope : ItemPath} {name : String} :
    (tree.eraseBelow (scope ++ [name])).holds scope = tree.holds scope := by
  unfold holds
  rw [get?_eraseBelow, if_neg (scope.not_item_prefix name)]

theorem WellFormed.replace (wf : tree.WellFormed) {scope : ItemPath} {name : String} (node : Node)
    (h : scope = [] ∨ tree.holds scope = true) (hn : IsItemName name) :
    (tree.replace (scope ++ [name]) node).WellFormed :=
  (wf.eraseBelow _).insert_new node (h.imp_right fun hs => holds_eraseBelow.trans hs) hn
    (contains_eraseBelow_self tree _)

theorem holds_replace {scope : ItemPath} {name : String} :
    (tree.replace (scope ++ [name]) node).holds scope = tree.holds scope := by
  rw [Tree.replace, holds_insert_ne _ _ (by simp), holds_eraseBelow]

end Tree

namespace Server

variable {s : Server} {path above : ItemPath} {name : String} {node : Node} {scope : Option FolderHandle}

/-! ## The requests -/

theorem deleteJob_there (hf : s.deleteFailures.lookup path = none) (h : s.tree.get? path = some node) :
    s.deleteJob path = .ok (s.tree.eraseBelow path) := by
  have hnode : s.node path = .ok node := by rw [Server.node, h]
  simp only [deleteJob, hf, hnode, bind, Except.bind]
  rfl

theorem deleteJob_absent (hf : s.deleteFailures.lookup path = none) (h : s.tree.contains path = false) :
    s.deleteJob path = .error (.notFound "job" path.display) := by
  have hnode : s.node path = .error (.notFound "job" path.display) := by
    rw [Server.node, Tree.contains_eq_false_iff.1 h]
  simp only [deleteJob, hf, hnode, bind, Except.bind]

theorem deleteJob_failing {status : Nat} (hf : s.deleteFailures.lookup path = some status) :
    s.deleteJob path = .error (.transport (some status) ("cannot delete " ++ path.display)) := by
  simp only [deleteJob, hf]
  rfl

theorem item_of_scopePath (hs : scopePath scope = above) (hn : IsItemName name) :
    (scopePath scope).item name = above ++ [name] := by
  rw [hs, ItemPath.item_eq hn]

theorem perform_deleteJob (s : Server) (ht : (scopePath scope).item name = path) :
    s.perform (.deleteJob scope name) =
      (s.recordAll [.deleteJob path]).changed ((s.recordAll [.deleteJob path]).deleteJob path) := by
  simp only [perform, answer, callOf, ht, record_eq_recordAll]

theorem perform_createJob (s : Server) (hs : scopePath scope = above) (hn : IsItemName name) (definition : String) :
    s.perform (.createJob scope name definition) =
      (s.recordAll [.createJob (above ++ [name])]).changed
        ((s.recordAll [.createJob (above ++ [name])]).createJob above name definition) := by
  simp only [perform, answer, callOf, hs, ItemPath.item_eq hn, record_eq_recordAll]

theorem yields_createJob (s : Server) (hs : scopePath scope = above) (hn : IsItemName name)
    (h : above = [] ∨ s.tree.holds above = true) (hnew : s.tree.contains (above ++ [name]) = false)
    (definition : String) :
    s.Yields (Operation.ask (.createJob scope name definition)) (.ok ())
      ((s.recordAll [.createJob (above ++ [name])]).withTree
        (s.tree.insert (above ++ [name]) ⟨kindOfDefinition definition, some definition, []⟩)) := by
  have hask := s.yields_ask (.createJob scope name definition)
  have hins := insertItem_new (s := s.recordAll [.createJob (above ++ [name])])
    ⟨kindOfDefinition definition, some definition, []⟩ h hn hnew
  simp only [perform_createJob s hs hn, createJob, hins] at hask
  exact hask

theorem yields_triggerBuild (s : Server) (hs : scopePath scope = above) (hn : IsItemName name)
    (h : s.tree.get? (above ++ [name]) = some node) (hk : node.kind ≠ .folder) :
    s.Yields (Operation.ask (.triggerBuild ⟨scope, name⟩)) (.ok ())
      ((s.recordAll [.triggerBuild (above ++ [name])]).withTree
        (s.tree.insert (above ++ [name]) { node with builds := node.builds ++ [s.triggeredResult] })) := by
  have hask := s.yields_ask (.triggerBuild ⟨scope, name⟩)
  have hnode : (s.recordAll [.triggerBuild (above ++ [name])]).node (above ++ [name]) = .ok node := by
    rw [Server.node, recordAll_tree, h]
  simp only [perform, answer, callOf, jobPath, hs, ItemPath.item_eq hn, record_eq_recordAll, triggerBuild, hnode, bind,
    Except.bind, if_neg hk] at hask
  exact hask

/-- The requests that replace an item by a job of a kind. -/
def replaceCalls (kind : TemplateKind) (path : ItemPath) : List Call :=
  [.deleteJob path, .createJob path] ++ if kind.triggersInitialBuild then [.triggerBuild path] else []

end Server

end Memory

namespace JobServer

open Memory Memory.Server

variable {server : JobServer} {s : Server} {above : ItemPath} {name : String} {scope : Option FolderHandle}

/-! ## The operations -/

/-- Deleting an item, there or not. -/
theorem deleteItem_erases (kind : String) {target : ItemPath} (ht : (scopePath scope).item name = target)
    (hne : target ≠ []) (hc : s.tree.Closed) (hf : s.deleteFailures.lookup target = none) :
    s.Yields (deleteItem kind scope name) (.ok ())
      ((s.recordAll [.deleteJob target]).withTree (s.tree.eraseBelow target)) := by
  have hask := s.yields_ask (.deleteJob scope name)
  rw [perform_deleteJob s ht] at hask
  rw [deleteItem]
  cases hthere : s.tree.contains target with
  | true =>
    obtain ⟨node, hnode⟩ := Tree.contains_iff.1 hthere
    rw [deleteJob_there (s := s.recordAll _) hf hnode] at hask
    exact hask.outcome.bind (yields_report _ _ _)
  | false =>
    rw [deleteJob_absent (s := s.recordAll _) hf hthere] at hask
    rw [hc.eraseBelow_of_absent hne hthere]
    exact hask.outcome.bind (yields_report _ _ _)

/-- A deletion that fails changes nothing. -/
theorem deleteItem_refused (kind : String) {target : ItemPath} (ht : (scopePath scope).item name = target)
    {status : Nat} (hf : s.deleteFailures.lookup target = some status) :
    s.Yields (deleteItem kind scope name)
      (.error (.transport (some status) ("cannot delete " ++ target.display))) (s.recordAll [.deleteJob target]) := by
  have hask := s.yields_ask (.deleteJob scope name)
  rw [perform_deleteJob s ht, deleteJob_failing (s := s.recordAll _) hf] at hask
  rw [deleteItem]
  exact hask.outcome.bind (yields_throw _ _)

theorem deleteItem_yields (kind : String) (hs : scopePath scope = above) (hn : IsItemName name)
    (wf : s.tree.WellFormed) (hf : s.deleteFailures.lookup (above ++ [name]) = none) :
    s.Yields (deleteItem kind scope name) (.ok ())
      ((s.recordAll [.deleteJob (above ++ [name])]).withTree (s.tree.eraseBelow (above ++ [name]))) :=
  deleteItem_erases kind (item_of_scopePath hs hn) (by simp) wf.closed hf

theorem deleteItem_failing (kind : String) (hs : scopePath scope = above) (hn : IsItemName name) {status : Nat}
    (hf : s.deleteFailures.lookup (above ++ [name]) = some status) :
    s.Yields (deleteItem kind scope name)
      (.error (.transport (some status) ("cannot delete " ++ (above ++ [name]).display)))
      (s.recordAll [.deleteJob (above ++ [name])]) :=
  deleteItem_refused kind (item_of_scopePath hs hn) hf

theorem yields_reportAll (s : Server) : ∀ events : List LogEvent, s.Yields (Operation.reportAll events) (.ok ()) s
  | [] => yields_pure s ()
  | event :: rest => (yields_report s event.level event.text).bind (yields_reportAll s rest)

/-- Rendering a definition asks the server nothing. -/
theorem yields_definition {kind : TemplateKind} {params : TemplateParams}
    {rendered : Except Error (String × List LogEvent)} (hr : server.templates.render kind params = rendered)
    (s : Server) : s.Yields (server.definition kind params) (rendered.map Prod.fst) s := by
  have hrender := yields_ofExcept s rendered
  rw [definition, hr]
  cases rendered with
  | error e => exact hrender.bind_error _
  | ok rendered => exact hrender.bind ((yields_reportAll s rendered.2).bind (yields_pure s rendered.1))

/-- **Creating a job** puts it in the place of what had its name. -/
theorem createJob_rendered {kind : TemplateKind} {params : TemplateParams} {definition : String}
    {events : List LogEvent} (hk : kind ≠ .folder)
    (hr : server.templates.render kind params = .ok (definition, events)) (hs : scopePath scope = above)
    (hn : IsItemName name) (wf : s.tree.WellFormed) (h : above = [] ∨ s.tree.holds above = true)
    (hf : s.deleteFailures.lookup (above ++ [name]) = none) :
    s.Yields (server.createJob kind scope name params) (.ok ⟨scope, name⟩)
      ((s.recordAll (replaceCalls kind (above ++ [name]))).withTree
        (s.tree.replace (above ++ [name]) (.ofDefinition kind definition s.triggeredResult))) := by
  have hdelete := deleteItem_yields "job" hs hn wf hf
  have hrender := yields_definition hr
    ((s.recordAll [.deleteJob (above ++ [name])]).withTree (s.tree.eraseBelow (above ++ [name])))
  have hcreate := yields_createJob
    ((s.recordAll [.deleteJob (above ++ [name])]).withTree (s.tree.eraseBelow (above ++ [name]))) hs hn
    (h.imp_right fun hold => Tree.holds_eraseBelow.trans hold) (Tree.contains_eraseBelow_self _ _) definition
  rw [recordAll_withTree, recordAll_recordAll] at hcreate
  rw [createJob, if_neg hk]
  refine hdelete.bind (hrender.bind (hcreate.bind ((yields_report _ _ _).bind ?_)))
  cases htriggers : kind.triggersInitialBuild with
  | false =>
    rw [replaceCalls, Tree.replace, Node.ofDefinition, htriggers]
    exact yields_pure _ _
  | true =>
    have hbuild := yields_triggerBuild
      ((s.recordAll [.deleteJob (above ++ [name]), .createJob (above ++ [name])]).withTree
        ((s.tree.eraseBelow (above ++ [name])).insert (above ++ [name])
          ⟨kindOfDefinition definition, some definition, []⟩))
      hs hn (Tree.get?_insert_self _ _ _) (kindOfDefinition_ne_folder _)
    rw [recordAll_withTree, recordAll_recordAll, withTree_tree, Tree.insert_insert] at hbuild
    rw [replaceCalls, Tree.replace, Node.ofDefinition, htriggers]
    exact hbuild.bind ((yields_report _ _ _).bind (yields_pure _ _))

theorem render_of_builtIn (h : server.templates = .builtIn) (kind : TemplateKind) (params : TemplateParams) :
    server.templates.render kind params = .ok (substitute kind.builtIn params, []) := by
  rw [h]
  rfl

/-- Creating a job from the built-in definitions. -/
theorem createJob_yields (hm : server.InMemory) {kind : TemplateKind} (hk : kind ≠ .folder) (params : TemplateParams)
    (ha : above.Named) (hn : IsItemName name) (wf : s.tree.WellFormed) (h : above = [] ∨ s.tree.holds above = true)
    (hf : s.deleteFailures.lookup (above ++ [name]) = none) :
    s.Yields (server.createJob kind (scopeOf above) name params) (.ok ⟨scopeOf above, name⟩)
      ((s.recordAll (replaceCalls kind (above ++ [name]))).withTree
        (s.tree.replace (above ++ [name]) (.ofTemplate kind params s.triggeredResult))) := by
  rw [← Node.ofDefinition_builtIn]
  exact createJob_rendered hk (render_of_builtIn hm.builtIn kind params) (scopePath_scopeOf ha) hn wf h hf

end JobServer

end JobHierarchy
