import JobHierarchy.Memory.World
import JobHierarchy.Proofs.Addresses
/-!
# What operations come to

`Server.Yields s t x s'` says that the operation `t` on the server `s` comes to `x` and leaves the
server `s'`, in whatever world and without time passing. Each way to build an operation has one rule,
so the outcome of an operation is put together from the outcomes of its requests.
-/

namespace JobHierarchy.Memory

variable {α β : Type}

theorem World.run_bind (w : World) (p : Program α) (f : α → Program β) :
    w.run (p >>= f) = (w.run p).2.run (f (w.run p).1) := by
  unfold World.run
  rw [Program.run_bind]
  rfl

theorem World.runOperation_bind (w : World) (t : Operation α) (f : α → Operation β) :
    w.runOperation (t >>= f) = match w.runOperation t with
      | (.ok a, w') => w'.runOperation (f a)
      | (.error e, w') => (.error e, w') := by
  unfold World.runOperation
  rw [ExceptT.run_bind, World.run_bind]
  rcases h : w.run t.run with ⟨x, w'⟩
  cases x with
  | ok a => rfl
  | error e => rfl

namespace Server

/-- `t` comes to `x` on the server `s` and leaves the server `s'`. Only the log of the world around
it grows. -/
def Yields (s : Server) (t : Operation α) (x : Except Error α) (s' : Server) : Prop :=
  ∀ w : World, w.server = s → ∃ log, w.runOperation t = (x, { w with server := s', log })

/-! ## Rules for building operations -/

theorem yields_pure (s : Server) (a : α) : s.Yields (pure a) (.ok a) s := by
  rintro w rfl
  exact ⟨w.log, rfl⟩

theorem yields_throw (s : Server) (e : Error) : s.Yields (throw e : Operation α) (.error e) s := by
  rintro w rfl
  exact ⟨w.log, rfl⟩

theorem yields_ofExcept (s : Server) (x : Except Error α) : s.Yields (Operation.ofExcept x) x s := by
  rintro w rfl
  exact ⟨w.log, rfl⟩

theorem yields_report (s : Server) (level : LogLevel) (text : String) :
    s.Yields (Operation.report level text) (.ok ()) s := by
  rintro w rfl
  exact ⟨w.log.push ⟨level, text⟩, rfl⟩

theorem yields_census (s : Server) : s.Yields Operation.census (.ok (s.tree.size + 1)) s := by
  rintro w rfl
  exact ⟨w.log, rfl⟩

theorem yields_ask (s : Server) (r : Request) : s.Yields (Operation.ask r) (s.perform r).1 (s.perform r).2 := by
  rintro w rfl
  exact ⟨w.log, rfl⟩

theorem Yields.bind {s s₁ s₂ : Server} {t : Operation α} {f : α → Operation β} {a : α} {x : Except Error β}
    (h : s.Yields t (.ok a) s₁) (hf : s₁.Yields (f a) x s₂) : s.Yields (t >>= f) x s₂ := by
  intro w hw
  obtain ⟨log, hlog⟩ := h w hw
  obtain ⟨log', hlog'⟩ := hf { w with server := s₁, log := log } rfl
  refine ⟨log', ?_⟩
  rw [World.runOperation_bind, hlog]
  exact hlog'

theorem Yields.bind_error {s s₁ : Server} {t : Operation α} {e : Error} (h : s.Yields t (.error e) s₁)
    (f : α → Operation β) : s.Yields (t >>= f) (.error e) s₁ := by
  intro w hw
  obtain ⟨log, hlog⟩ := h w hw
  refine ⟨log, ?_⟩
  rw [World.runOperation_bind, hlog]

theorem Yields.outcome {s s' : Server} {t : Operation α} {x : Except Error α} (h : s.Yields t x s') :
    s.Yields (Operation.outcome t) (.ok x) s' := by
  intro w hw
  obtain ⟨log, hlog⟩ := h w hw
  refine ⟨log, ?_⟩
  unfold World.runOperation at hlog ⊢
  rw [Operation.run_outcome, World.run_bind, hlog]
  rfl

/-- An operation comes to one thing only. -/
theorem Yields.unique {s s₁ s₂ : Server} {t : Operation α} {x y : Except Error α} (h₁ : s.Yields t x s₁)
    (h₂ : s.Yields t y s₂) : x = y ∧ s₁ = s₂ := by
  obtain ⟨log₁, e₁⟩ := h₁ (.ofServer s) rfl
  obtain ⟨log₂, e₂⟩ := h₂ (.ofServer s) rfl
  rw [e₁] at e₂
  exact ⟨congrArg Prod.fst e₂, congrArg (fun r => r.2.server) e₂⟩

/-! ## Requests on record -/

/-- The server with more requests on record. -/
def recordAll (s : Server) (calls : List Call) : Server := { s with calls := s.calls ++ calls.toArray }

@[simp] theorem recordAll_tree (s : Server) (calls : List Call) : (s.recordAll calls).tree = s.tree := rfl

@[simp] theorem folderView_recordAll (s : Server) (calls : List Call) (path : ItemPath) :
    (s.recordAll calls).folderView path = s.folderView path := rfl

@[simp] theorem recordAll_nil (s : Server) : s.recordAll [] = s := by simp [recordAll]

@[simp] theorem record_eq_recordAll (s : Server) (call : Call) : s.record call = s.recordAll [call] := by
  simp [record, recordAll]

@[simp] theorem recordAll_recordAll (s : Server) (calls calls' : List Call) :
    (s.recordAll calls).recordAll calls' = s.recordAll (calls ++ calls') := by
  simp [recordAll]

/-- The server with another tree. -/
def withTree (s : Server) (tree : Tree) : Server := { s with tree }

@[simp] theorem withTree_tree (s : Server) (tree : Tree) : (s.withTree tree).tree = tree := rfl

theorem recordAll_withTree (s : Server) (tree : Tree) (calls : List Call) :
    (s.withTree tree).recordAll calls = (s.recordAll calls).withTree tree := rfl

/-- What the requests on record are about that `f` picks, oldest first. -/
def picked (s : Server) (f : Call → Option α) : List α := s.calls.toList.filterMap f

theorem picked_recordAll (s : Server) (f : Call → Option α) (calls : List Call) :
    (s.recordAll calls).picked f = s.picked f ++ calls.filterMap f := by
  simp [picked, recordAll]

/-! ## Requests about items -/

section
variable {above : ItemPath} {name : String}

theorem perform_getJob (s : Server) (ha : above.Named) (hn : IsItemName name) :
    s.perform (.getJob (scopeOf above) name) =
      (.ok (if s.tree.contains (above ++ [name]) then some ⟨scopeOf above, name⟩ else none),
        s.recordAll [.getJob (above ++ [name])]) := by
  simp only [perform, answer, callOf, getJob, scopePath_scopeOf ha, ItemPath.item_eq hn, record_eq_recordAll,
    recordAll_tree]

theorem yields_getJob (s : Server) (ha : above.Named) (hn : IsItemName name) :
    s.Yields (Operation.ask (.getJob (scopeOf above) name))
      (.ok (if s.tree.contains (above ++ [name]) then some ⟨scopeOf above, name⟩ else none))
      (s.recordAll [.getJob (above ++ [name])]) := by
  have h := s.yields_ask (.getJob (scopeOf above) name)
  rw [perform_getJob s ha hn] at h
  exact h

theorem perform_folderView (s : Server) (ha : above.Named) (hn : IsItemName name) :
    s.perform (.folderView ⟨scopeOf above, name⟩) =
      (s.folderView (above ++ [name]), s.recordAll [.folderView (above ++ [name])]) := by
  simp only [perform, answer, callOf, jobPath_scopeOf ha hn, record_eq_recordAll, folderView_recordAll]

theorem yields_folderView (s : Server) (ha : above.Named) (hn : IsItemName name) :
    s.Yields (Operation.ask (.folderView ⟨scopeOf above, name⟩)) (s.folderView (above ++ [name]))
      (s.recordAll [.folderView (above ++ [name])]) := by
  have h := s.yields_ask (.folderView ⟨scopeOf above, name⟩)
  rw [perform_folderView s ha hn] at h
  exact h

end

theorem folderView_of_holder {s : Server} {path : ItemPath} {node : Node} (h : s.tree.get? path = some node)
    (hk : node.kind ≠ .job) : s.folderView path = .ok (some ⟨handleOf path, s.tree.children path⟩) := by
  unfold folderView Server.node
  rw [h, ofUrl_urlOf]
  exact if_neg hk

theorem folderView_of_job {s : Server} {path : ItemPath} {node : Node} (h : s.tree.get? path = some node)
    (hk : node.kind = .job) : s.folderView path = .ok none := by
  unfold folderView Server.node
  rw [h]
  exact if_pos hk

end Server

end JobHierarchy.Memory
