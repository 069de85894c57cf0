import JobHierarchy.Http.Server
import JobHierarchy.Lifecycle
import JobHierarchy.Proofs.Alterations
import JobHierarchy.Proofs.Codes
import JobHierarchy.Proofs.Folders
/-!
# One URL for a folder

The URL of a folder is written in more than one place: by the client for a folder that it has just asked for, by the
transport over the web for the handle in a folder view, by the in-memory server for the items of its tree, and by a
folder path for itself. Each adds one step to the URL of the scope (`Children`), so all ways down the names of a path
lead to the server's URL with the path's behind it (`Children.descend_url`).

A handle is passed on from answer to answer. What an operation can return whatever it is answered, so long as the
answers name items as the server's URL does, is settled on its program alone (`Program.Gives`, `NamesItems`). So the
handle that a creation returns is the one that a resolution finds, over the web as in memory (`handles_agree`).
-/

namespace JobHierarchy

variable {α β : Type}

/-! ## Ways down -/

/-- Where a row of names leads to from a scope, by the folder that each name has in the scope above. -/
def descend (child : Option FolderHandle → String → FolderHandle) (scope : Option FolderHandle) (names : List String) :
    Option FolderHandle :=
  names.foldl (fun scope name => some (child scope name)) scope

/-- The folder that the first names of a path lead to. -/
def FolderPath.upTo (path : FolderPath) (depth : Nat) : FolderPath :=
  ⟨path.segments.take depth, fun name h => path.named name (List.mem_of_mem_take h)⟩

/-- Folders are named as on the server at a URL: one step behind the URL of their scope. -/
def Children (baseUrl : String) (child : Option FolderHandle → String → FolderHandle) : Prop :=
  ∀ scope name, (child scope name).url = itemUrl baseUrl scope name

/-- The folder at an item's URL, as the transport over the web gives it. -/
def Http.Endpoint.folder (endpoint : Http.Endpoint) (scope : Option FolderHandle) (name : String) : FolderHandle :=
  .ofUrl (JobRef.url endpoint.baseUrl ⟨scope, name⟩)

theorem FolderHandle.eq_of_url : ∀ {handle other : FolderHandle}, handle.url = other.url → handle = other
  | ⟨_, _⟩, ⟨_, _⟩, rfl => rfl

theorem itemUrl_slashed (baseUrl : String) (scope : Option FolderHandle) (name : String) :
    (itemUrl baseUrl scope name).toList.getLast? = some '/' := by
  rw [itemUrl, String.toList_append, toList_itemStep, ← List.cons_append, ← List.append_assoc, ← List.append_assoc,
    List.getLast?_concat]

theorem children_ofUrl (baseUrl : String) : Children baseUrl fun scope name => .ofUrl (itemUrl baseUrl scope name) :=
  fun scope name => if_pos (itemUrl_slashed baseUrl scope name)

theorem JobServer.children (server : JobServer) : Children server.baseUrl server.childFolder :=
  children_ofUrl server.baseUrl

theorem Http.Endpoint.children (endpoint : Http.Endpoint) : Children endpoint.baseUrl endpoint.folder :=
  children_ofUrl endpoint.baseUrl

section
variable {baseUrl : String} {child child' : Option FolderHandle → String → FolderHandle}

/-- Every name adds its step. -/
theorem Children.scopeUrl_descend (h : Children baseUrl child) : ∀ (names : List String) (scope : Option FolderHandle),
    scopeUrl baseUrl (descend child scope names) = scopeUrl baseUrl scope ++ String.join (names.map itemStep)
  | [], scope => by simp [descend]
  | name :: names, scope => by
    have ih := h.scopeUrl_descend names (some (child scope name))
    rw [show scopeUrl baseUrl (some (child scope name)) = itemUrl baseUrl scope name from h scope name] at ih
    rw [List.map_cons, String.join_cons, ← String.append_assoc, ← itemUrl, ← ih]
    rfl

theorem descend_isSome (child : Option FolderHandle → String → FolderHandle) :
    ∀ (names : List String) (scope : Option FolderHandle), names ≠ [] → (descend child scope names).isSome
  | [], _, h => absurd rfl h
  | [_], _, _ => rfl
  | _ :: next :: names, _, _ => descend_isSome child (next :: names) _ (List.cons_ne_nil _ _)

theorem Children.descend_url (h : Children baseUrl child) {names : List String} (hne : names ≠ []) :
    (descend child none names).map FolderHandle.url = some (baseUrl ++ String.join (names.map itemStep)) := by
  obtain ⟨handle, hhandle⟩ := Option.isSome_iff_exists.1 (descend_isSome child _ none hne)
  have hurl := h.scopeUrl_descend names none
  rw [hhandle] at hurl ⊢
  exact congrArg some hurl

/-- There is one way to name folders for each URL. -/
theorem Children.unique (h : Children baseUrl child) (h' : Children baseUrl child') : child = child' := by
  funext scope name
  exact FolderHandle.eq_of_url ((h scope name).trans (h' scope name).symm)

end

/-! ## What programs return -/

/-- Whatever the requests are answered, so long as it is something that is allowed, the program comes to something
with `P`. -/
def Program.Gives (allowed : (r : Request) → Except Error r.Answer → Prop) (P : α → Prop) : Program α → Prop
  | .done a => P a
  | .request r next => ∀ x, allowed r x → (next x).Gives allowed P
  | .report _ next => next.Gives allowed P
  | .sleep _ next => next.Gives allowed P
  | .clock next => ∀ t, (next t).Gives allowed P
  | .census next => ∀ n, (next n).Gives allowed P

/-- The same of what an operation returns. -/
def Operation.Returns (allowed : (r : Request) → Except Error r.Answer → Prop) (P : α → Prop) (t : Operation α) : Prop :=
  t.run.Gives allowed fun x => ∀ a, x = .ok a → P a

section
variable {allowed : (r : Request) → Except Error r.Answer → Prop} {P : α → Prop} {Q : β → Prop}

namespace Program

theorem Gives.bind {p : Program α} {f : α → Program β} (h : p.Gives allowed P) (hf : ∀ a, P a → (f a).Gives allowed Q) :
    (p >>= f).Gives allowed Q := by
  induction p with
  | done a => exact hf a h
  | request r next ih => exact fun x hx => ih x (h x hx)
  | report event next ih => exact ih h
  | sleep millis next ih => exact ih h
  | clock next ih => exact fun t => ih t (h t)
  | census next ih => exact fun n => ih n (h n)

theorem gives_of_forall (h : ∀ a, P a) (p : Program α) : p.Gives allowed P := by
  induction p with
  | done a => exact h a
  | request r next ih => exact fun x _ => ih x
  | report event next ih => exact ih
  | sleep millis next ih => exact ih
  | clock next ih => exact fun t => ih t
  | census next ih => exact fun n => ih n

/-- A run under a handler whose answers are all allowed. -/
theorem Gives.run {σ : Type} {h : Handler (StateM σ)} (hh : ∀ r st, allowed r (h.perform r st).1) {p : Program α}
    (hp : p.Gives allowed P) (st : σ) : P (p.run h st).1 := by
  induction p generalizing st with
  | done a => exact hp
  | request r next ih => exact ih _ (hp _ (hh r st)) _
  | report event next ih => exact ih hp _
  | sleep millis next ih => exact ih hp _
  | clock next ih => exact ih _ (hp _) _
  | census next ih => exact ih _ (hp _) _

end Program

namespace Operation

theorem returns_pure {a : α} (h : P a) : Returns allowed P (pure a) := by
  intro b hb
  cases hb
  exact h

theorem returns_throw (e : Error) : Returns allowed P (throw e) := by
  intro b hb
  cases hb

theorem returns_any (t : Operation α) : Returns allowed (fun _ => True) t :=
  Program.gives_of_forall (fun _ _ _ => trivial) t.run

theorem returns_ask (r : Request) : Returns allowed (fun a => allowed r (.ok a)) (ask r) := by
  rintro x hx a rfl
  exact hx

theorem Returns.bind {t : Operation α} {f : α → Operation β} (h : t.Returns allowed P)
    (hf : ∀ a, P a → (f a).Returns allowed Q) : (t >>= f).Returns allowed Q := by
  refine Program.Gives.bind h fun x hx => ?_
  cases x with
  | ok a => exact hf a (hx a rfl)
  | error e =>
    intro b hb
    cases hb

end Operation

end

/-! ## Handles that operations return -/

/-- The answer names what it is about as the server at a URL does. -/
def NamesItems (baseUrl : String) : (r : Request) → Except Error r.Answer → Prop
  | .getJob scope name, x => ∀ job, x = .ok (some job) → job = ⟨scope, name⟩
  | .folderView job, x => ∀ view, x = .ok (some view) → view.handle = .ofUrl (job.url baseUrl)
  | _, _ => True

namespace JobServer

open Operation

variable {allowed : (r : Request) → Except Error r.Answer → Prop}

/-- A folder that has been asked for has the handle of its name in the scope, whatever is answered. -/
theorem createFolder_returns (server : JobServer) (scope : Option FolderHandle) (name : String) :
    (server.createFolder scope name).Returns allowed (· = server.childFolder scope name) := by
  unfold createFolder
  refine (returns_any _).bind fun _ _ => (returns_any _).bind fun _ _ => (returns_any _).bind fun _ _ => ?_
  exact returns_pure rfl

theorem createFoldersBelow_returns (server : JobServer) : ∀ (names : List String) (last : FolderHandle),
    (server.createFoldersBelow last names).Returns allowed fun handle =>
      some handle = descend server.childFolder (some last) names
  | [], last => returns_pure rfl
  | name :: rest, last => by
    refine (server.createFolder_returns (some last) name).bind fun next hnext => ?_
    subst hnext
    exact server.createFoldersBelow_returns rest _

/-- **What a creation returns** is the way down the path, whatever is answered. -/
theorem createFolderChain_returns (server : JobServer) (path : FolderPath) (deleteRoot : Bool) :
    (server.createFolderChain path deleteRoot).Returns allowed fun handle =>
      some handle = descend server.childFolder none path.segments := by
  unfold createFolderChain
  cases path.segments with
  | nil => exact returns_throw _
  | cons root rest =>
    have hbuild : (server.createFolder none root >>= fun first => server.createFoldersBelow first rest).Returns allowed
        fun handle => some handle = descend server.childFolder none (root :: rest) :=
      (server.createFolder_returns none root).bind fun first hfirst => hfirst ▸ server.createFoldersBelow_returns rest _
    cases deleteRoot with
    | true => exact (returns_any _).bind fun _ _ => hbuild
    | false => exact hbuild

theorem createAndFind_returns {baseUrl : String} (server : JobServer) (scope : Option FolderHandle) (name : String) :
    (server.createAndFind scope name).Returns (NamesItems baseUrl) (· = ⟨scope, name⟩) := by
  unfold createAndFind
  refine (returns_any _).bind fun attempt _ => (returns_ask _).bind fun found hfound => ?_
  split
  · next job e => exact (returns_any _).bind fun _ _ => returns_pure (hfound job rfl)
  · next job _ => exact returns_pure (hfound job rfl)
  · exact returns_throw _
  · exact returns_throw _

theorem returns_folderView_bind {α : Type} {P : α → Prop} {baseUrl : String} {f : Option FolderView → Operation α}
    (job : JobRef) (hsome : ∀ view : FolderView, view.handle = .ofUrl (job.url baseUrl) →
      (f (some view)).Returns (NamesItems baseUrl) P)
    (hnone : (f none).Returns (NamesItems baseUrl) P) : (ask (.folderView job) >>= f).Returns (NamesItems baseUrl) P := by
  refine (returns_ask _).bind fun view hview => ?_
  cases view with
  | some view => exact hsome view (hview view rfl)
  | none => exact hnone

theorem resolveBelow_returns (server : JobServer) (create : Bool) :
    ∀ (names : List String) (above : List String) (scope : Option FolderHandle),
    (server.resolveBelow create above scope names).Returns (NamesItems server.baseUrl)
      (· = descend server.childFolder scope names)
  | [], _, scope => returns_pure rfl
  | name :: rest, above, scope => by
    -- once the item is known, its view decides
    have hbelow : ∀ view : FolderView, view.handle = server.childFolder scope name →
        (server.resolveBelow create (above ++ [name]) (some view.handle) rest).Returns (NamesItems server.baseUrl)
          (· = descend server.childFolder scope (name :: rest)) := by
      intro view hhandle
      have ih := server.resolveBelow_returns create rest (above ++ [name]) (some view.handle)
      rw [hhandle] at ih ⊢
      exact ih
    rw [resolveBelow]
    refine (returns_ask _).bind fun found hfound => ?_
    cases found with
    | some job =>
      refine (returns_pure (P := (· = ⟨scope, name⟩)) (hfound job rfl)).bind fun job hjob => ?_
      subst hjob
      exact returns_folderView_bind _ hbelow (returns_throw _)
    | none =>
      cases create with
      | true =>
        refine (server.createAndFind_returns scope name).bind fun job hjob => ?_
        subst hjob
        exact returns_folderView_bind _ hbelow (returns_throw _)
      | false => exact (returns_throw (P := fun _ => False) _).bind fun _ hjob => hjob.elim

/-- **What a resolution returns** is the way down the path, so long as the answers name items as the server does. -/
theorem resolve_returns (server : JobServer) (path : FolderPath) (create : Bool) :
    (server.resolve path create).Returns (NamesItems server.baseUrl)
      (· = descend server.childFolder none path.segments) := by
  refine (server.resolveBelow_returns create path.segments [] none).bind fun handle hhandle => ?_
  exact (returns_any _).bind fun _ _ => returns_pure hhandle

end JobServer

/-! ## Over the web -/

namespace Http

variable {σ : Type}

theorem fst_bind_map {ε α β : Type} (fetch : StateM σ (Except ε α)) (f : α → β) (st : σ) :
    ((fetch >>= fun found => pure (found.map f)) st).1 = (fetch st).1.map f := rfl

/-- However the network answers, what it answers is read as being about the item that was asked for. -/
theorem perform_namesItems (exchange : Exchange (StateM σ)) (report : LogEvent → StateM σ Unit) (endpoint : Endpoint)
    (r : Request) (st : σ) : NamesItems endpoint.baseUrl r (perform exchange report endpoint r st).1 := by
  cases r with
  | getJob scope name =>
    intro job hjob
    rw [perform, fst_bind_map] at hjob
    obtain ⟨document, -, hdocument⟩ := Except.map_eq_ok hjob
    obtain ⟨_, -, rfl⟩ := Option.map_eq_some_iff.1 hdocument
    rfl
  | folderView job =>
    intro view hview
    rw [perform, fst_bind_map] at hview
    obtain ⟨document, -, hdocument⟩ := Except.map_eq_ok hview
    obtain ⟨jobs, -, rfl⟩ := Option.map_eq_some_iff.1 hdocument
    rfl
  | _ => trivial

end Http

/-! ## In memory -/

namespace Memory

/-- The way down a path, for a server at the URL of the one in memory. -/
theorem descend_eq_handle? {child : Option FolderHandle → String → FolderHandle} (h : Children baseUrl child)
    (path : FolderPath) : descend child none path.segments = path.handle? := by
  rw [path.handle?_eq]
  by_cases hne : path.segments = []
  · rw [hne]
    rfl
  · obtain ⟨handle, hhandle⟩ := Option.isSome_iff_exists.1 (descend_isSome child _ none hne)
    have hurl := h.descend_url hne
    rw [hhandle] at hurl
    rw [hhandle, scopeOf_of_ne_nil hne]
    exact congrArg some (FolderHandle.eq_of_url (Option.some.inj hurl))

/-- If the operation succeeds, what it returns and the server that it leaves satisfy `Q`. -/
def World.Ensures (w : World) (t : Operation α) (Q : α → Server → Prop) : Prop :=
  ∀ a, (w.runOperation t).1 = .ok a → Q a (w.runOperation t).2.server

namespace World

variable {w : World} {Q : α → Server → Prop} {R : β → Server → Prop}

theorem Ensures.bind {t : Operation α} {f : α → Operation β} (h : w.Ensures t Q)
    (hf : ∀ a (w' : World), Q a w'.server → w'.Ensures (f a) R) : w.Ensures (t >>= f) R := by
  unfold Ensures at h ⊢
  rw [runOperation_bind]
  rcases hrun : w.runOperation t with ⟨x, w'⟩
  rw [hrun] at h
  cases x with
  | ok a => exact hf a w' (h a rfl)
  | error e =>
    intro b hb
    cases hb

theorem ensures_any (w : World) (t : Operation α) : w.Ensures t fun _ _ => True := fun _ _ => trivial

theorem ensures_pure {a : α} (h : Q a w.server) : w.Ensures (pure a) Q := by
  intro b hb
  cases hb
  exact h

theorem ensures_ask {r : Request} {Q : r.Answer → Server → Prop}
    (h : ∀ a, (w.server.perform r).1 = .ok a → Q a (w.server.perform r).2) : w.Ensures (Operation.ask r) Q := h

theorem ensures_throw (w : World) (e : Error) : w.Ensures (throw e) Q := by
  intro b hb
  cases hb

theorem ensures_report (w : World) (level : LogLevel) (text : String) :
    w.Ensures (Operation.report level text) fun _ s => s = w.server := fun _ _ => rfl

theorem ensures_reportAll (w : World) : ∀ events : List LogEvent,
    w.Ensures (Operation.reportAll events) fun _ s => s = w.server
  | [] => ensures_pure rfl
  | event :: events => by
    refine Ensures.bind (Q := fun _ s => s = w.server) (fun _ _ => rfl) fun _ w' hw' => ?_
    rw [← hw']
    exact w'.ensures_reportAll events

end World

theorem Server.submitFolder_eq_ok {s : Server} {scope : ItemPath} {name : String}
    (h : (s.submitFolder scope name).1 = .ok ()) :
    (s.submitFolder scope name).2.tree = s.tree.insert (scope.item name) (.ofKind .folder) := by
  unfold submitFolder at h ⊢
  cases hf : s.folderFailures.lookup (scope.item name) with
  | some status =>
    simp only [hf] at h
    cases h
  | none =>
    simp only [hf] at h ⊢
    split at h
    · cases h
    · next tree hins =>
      exact (insertItem_eq_ok hins).2.2

/-- Every folder on the way to a path is there, and the folder itself. -/
def Server.Leads (s : Server) (path : ItemPath) : Prop := ∀ q, q ≠ [] → q <+: path → s.tree.holds q = true

theorem Server.leads_nil (s : Server) : s.Leads [] := fun _ hq hpre => absurd (List.prefix_nil.1 hpre) hq

theorem Server.Leads.insert {s s' : Server} {above : ItemPath} {name : String} (h : s.Leads above)
    (htree : s'.tree = s.tree.insert (above ++ [name]) (.ofKind .folder)) : s'.Leads (above ++ [name]) := by
  intro q hq hpre
  rw [htree]
  by_cases hself : q = above ++ [name]
  · rw [hself]
    exact Tree.holds_iff.2 ⟨_, Tree.get?_insert_self _ _ _, by decide⟩
  · rw [Tree.holds_insert_ne _ _ hself]
    exact h q hq ((List.prefix_concat_iff.1 hpre).resolve_left hself)

end Memory

namespace JobServer

open Memory Memory.World Operation

variable {server : JobServer}

/-- Rendering a definition leaves the server alone. -/
theorem definition_ensures (server : JobServer) (w : World) (kind : TemplateKind) (params : TemplateParams) :
    w.Ensures (server.definition kind params) fun _ s => s = w.server := by
  refine Ensures.bind (Q := fun _ s => s = w.server) (fun _ _ => rfl) fun rendered w' hw' => ?_
  refine (w'.ensures_reportAll rendered.2).bind fun _ w'' hw'' => ensures_pure ?_
  rw [hw'', hw']

theorem createFolder_ensures (hb : server.baseUrl = Memory.baseUrl) (above : ItemPath) {name : String}
    (ha : above.Named) (hn : IsItemName name) (w : World) :
    w.Ensures (server.createFolder (scopeOf above) name) fun handle s =>
      handle = handleOf (above ++ [name]) ∧ s.tree = w.server.tree.insert (above ++ [name]) (.ofKind .folder) := by
  unfold createFolder
  rw [hb, scopeUrl_scopeOf, childFolder_of_url hb]
  refine (server.definition_ensures w .folder []).bind fun definition w₁ hw₁ => ?_
  refine Ensures.bind (Q := fun _ s => s.tree = w.server.tree.insert (above ++ [name]) (.ofKind .folder))
    (ensures_ask ?_) fun _ w₂ hw₂ => ?_
  · rw [Server.perform_submitFolder ha hn, hw₁]
    intro _ hok
    rw [Server.submitFolder_eq_ok hok, ItemPath.item_eq hn]
    rfl
  · refine (w₂.ensures_report _ _).bind fun _ w₃ hw₃ => ensures_pure ⟨rfl, ?_⟩
    rw [hw₃, hw₂]

theorem createFoldersBelow_ensures (hb : server.baseUrl = Memory.baseUrl) : ∀ (names : List String) (above : ItemPath)
    (w : World), above ≠ [] → ItemPath.Named (above ++ names) → w.server.Leads above →
    w.Ensures (server.createFoldersBelow (handleOf above) names) fun _ s => s.Leads (above ++ names)
  | [], above, w, _, _, h => ensures_pure (by simpa using h)
  | name :: rest, above, w, hne, hnamed, h => by
    obtain ⟨ha, hr⟩ := ItemPath.named_append.1 hnamed
    have hstep := createFolder_ensures hb above ha (hr name List.mem_cons_self) w
    rw [scopeOf_of_ne_nil hne] at hstep
    have hsplit : above ++ name :: rest = above ++ [name] ++ rest := by simp
    refine hstep.bind fun next w' hw' => ?_
    obtain ⟨rfl, htree⟩ := hw'
    rw [hsplit] at hnamed ⊢
    exact createFoldersBelow_ensures hb rest (above ++ [name]) w' (by simp) hnamed (h.insert htree)

/-- A creation that succeeds leaves every folder of the path there. -/
theorem createFolderChain_ensures (hb : server.baseUrl = Memory.baseUrl) (path : FolderPath) (deleteRoot : Bool)
    (w : World) : w.Ensures (server.createFolderChain path deleteRoot) fun _ s => s.Leads path.segments := by
  have hnamed : ItemPath.Named path.segments := path.named
  unfold createFolderChain
  cases hpath : path.segments with
  | nil => exact w.ensures_throw _
  | cons root rest =>
    rw [hpath] at hnamed
    have hbuild : ∀ w' : World, w'.Ensures (server.createFolder none root >>= fun first =>
        server.createFoldersBelow first rest) fun _ s => s.Leads (root :: rest) := by
      intro w'
      have hstep := createFolder_ensures hb [] (by simp [ItemPath.Named]) (hnamed root List.mem_cons_self) w'
      refine hstep.bind fun first w'' hw'' => ?_
      obtain ⟨rfl, htree⟩ := hw''
      have hroot : w''.server.Leads ([] ++ [root]) := w'.server.leads_nil.insert htree
      exact createFoldersBelow_ensures hb rest [root] w'' (by simp) hnamed hroot
    cases deleteRoot with
    | true => exact (w.ensures_any _).bind fun _ w' _ => hbuild w'
    | false => exact hbuild w

end JobServer

/-! ## All together -/

open Memory

theorem FolderPath.display_append (path : FolderPath) (name : String) :
    ItemPath.display (path.segments ++ [name]) = path.displayItem name := by
  unfold ItemPath.display displayItem isTopLevel display
  by_cases hne : path.segments = []
  · simp [hne]
  · rw [if_neg (by simpa using hne), String.intercalate_append_of_ne_nil hne (by simp)]
    simp

/-- The item of a name under the handle of a path is the one that the path shows. -/
theorem jobPath_descend {child : Option FolderHandle → String → FolderHandle} (h : Children Memory.baseUrl child)
    (path : FolderPath) {name : String} (hn : IsItemName name) :
    jobPath ⟨descend child none path.segments, name⟩ = path.segments ++ [name] := by
  rw [descend_eq_handle? h, path.handle?_eq, jobPath_scopeOf path.named hn]

/-- **All that write the URL of a folder agree**, at every depth: the client, the transport over the web, and the path
itself. So what an operation returns over the web is that folder's handle, whether it was found or created. On the
server in memory the URL is also the one of the item with the path's name, the items in the folder are the ones that
the path shows, and a folder that has just been created is found by the handle that its creation returned. -/
theorem handles_agree {url : String} {server : JobServer} {endpoint : Http.Endpoint}
    (hs : server.baseUrl = withSlash url) (he : endpoint.baseUrl = withSlash url) (path : FolderPath) :
    (∀ depth, 0 < depth → depth ≤ path.length →
      (descend server.childFolder none (path.upTo depth).segments).map FolderHandle.url =
          some (withSlash url ++ (path.upTo depth).urlPath) ∧
        (descend endpoint.folder none (path.upTo depth).segments).map FolderHandle.url =
          some (withSlash url ++ (path.upTo depth).urlPath)) ∧
    (∀ (σ : Type) (exchange : Http.Exchange (StateM σ)) (waiting : Waiting (StateM σ)) (st : σ),
      (∀ create handle?, ((server.resolve path create).run.run (Http.handler exchange waiting endpoint) st).1 =
          .ok handle? → handle? = descend endpoint.folder none path.segments) ∧
        ∀ deleteRoot handle, ((server.createFolderChain path deleteRoot).run.run (Http.handler exchange waiting endpoint)
          st).1 = .ok handle → some handle = descend endpoint.folder none path.segments) ∧
    (withSlash url = Memory.baseUrl →
      (path ≠ .topLevel → (descend server.childFolder none path.segments).map FolderHandle.url =
        some (urlOf (ItemPath.ofString path.display))) ∧
      (∀ name, IsItemName name →
        let job : JobRef := ⟨descend endpoint.folder none path.segments, name⟩
        pathOf (job.url endpoint.baseUrl) = jobPath job ∧ (jobPath job).display = path.displayItem name) ∧
      ∀ (w : World) (deleteRoot : Bool) (handle : FolderHandle),
        (w.runOperation (server.createFolderChain path deleteRoot)).1 = .ok handle →
        ((w.runOperation (server.createFolderChain path deleteRoot)).2.runOperation (server.resolve path false)).1 =
          .ok (some handle)) := by
  have hchild : server.childFolder = endpoint.folder :=
    (hs ▸ server.children).unique (he ▸ endpoint.children)
  refine ⟨fun depth h0 hd => ?_, fun σ exchange waiting st => ?_, fun hurl => ?_⟩
  · have hne : (path.upTo depth).segments ≠ [] := by
      intro h
      have : depth = 0 ∨ path.segments = [] := by simpa [FolderPath.upTo] using h
      rcases this with h | h
      · omega
      · simp [FolderPath.length, h] at hd
        omega
    exact ⟨(hs ▸ server.children).descend_url hne, (he ▸ endpoint.children).descend_url hne⟩
  · have hweb := Http.perform_namesItems exchange waiting.report endpoint
    rw [he, ← hs] at hweb
    rw [← hchild]
    exact ⟨fun create handle? h => (server.resolve_returns path create).run hweb st handle? h,
      fun deleteRoot handle h => (server.createFolderChain_returns path deleteRoot).run hweb st handle h⟩
  · have hmem : Children Memory.baseUrl endpoint.folder := hurl ▸ he ▸ endpoint.children
    rw [hchild]
    refine ⟨fun hne => ?_, fun name hn => ?_, fun w deleteRoot handle h => ?_⟩
    · have hne : path.segments ≠ [] := fun h => hne (by cases path; cases h; rfl)
      have hread : ItemPath.ofString path.display = path.segments := ItemPath.ofString_display hne path.named
      rw [hmem.descend_url hne, hread]
      rfl
    · have hjob := jobPath_descend hmem path hn
      refine ⟨?_, by rw [hjob, path.display_append]⟩
      rw [hjob, JobRef.url, descend_eq_handle? hmem, path.handle?_eq, he, hurl, itemUrl_scopeOf]
      exact pathOf_urlOf (ItemPath.named_append.2 ⟨path.named, ItemPath.named_singleton.2 hn⟩)
    · have hleads := JobServer.createFolderChain_ensures (hs.trans hurl) path deleteRoot w handle h
      have hreturns : (server.createFolderChain path deleteRoot).Returns (fun _ _ => True) _ :=
        server.createFolderChain_returns path deleteRoot
      have hhandle := hreturns.run (h := World.handler) (fun _ _ => trivial) w handle h
      rw [hchild, descend_eq_handle? hmem] at hhandle
      obtain ⟨log, hlog⟩ := JobServer.resolve_yields server false
        (fun q hq => hleads q (FolderPath.mem_prefixes.1 hq).1 (FolderPath.mem_prefixes.1 hq).2) _ rfl
      rw [hlog, hhandle]

/-- Settings without a slash at the end of the URL. -/
def unslashed : Settings := { Settings.default with baseUrl := "http://jobtree.invalid" }

/-- The client and the transport of a connection by these settings. -/
def unslashedServer : JobServer := ⟨unslashed.normalizedBaseUrl, .builtIn, none⟩
def unslashedEndpoint : Http.Endpoint := ⟨unslashed.normalizedBaseUrl, none⟩

def oddNames : FolderPath := ⟨["team A", "50%20", "job"], by decide⟩

/-- The first folder of `oddNames` is there already, with something in it. -/
def started : World :=
  .ofServer { Server.empty with
    tree := (Tree.empty.insert ["team A"] (.ofKind .folder)).insert ["team A", "nightly"] (.ofKind .job) }

theorem handles_agree_oddNames :
    unslashedServer.baseUrl = withSlash unslashed.baseUrl ∧ unslashedEndpoint.baseUrl = withSlash unslashed.baseUrl ∧
      (descend unslashedEndpoint.folder none (oddNames.upTo 2).segments).map FolderHandle.url =
        some "http://jobtree.invalid/job/team%20A/job/50%2520/" ∧
      (jobPath ⟨descend unslashedEndpoint.folder none oddNames.segments, "a+b"⟩).display = "team A/50%20/job/a+b" ∧
      ∃ handle, (started.runOperation (unslashedServer.createFolderChain oddNames true)).1 = .ok handle ∧
        ((started.runOperation (unslashedServer.createFolderChain oddNames true)).2.runOperation
          (unslashedServer.resolve oddNames false)).1 = .ok (some handle) := by
  have hs : unslashedServer.baseUrl = withSlash unslashed.baseUrl := rfl
  have he : unslashedEndpoint.baseUrl = withSlash unslashed.baseUrl := rfl
  obtain ⟨hurls, -, hmemory⟩ := handles_agree hs he oddNames
  obtain ⟨-, hitems, hfound⟩ := hmemory (by decide)
  have hcreated : (started.runOperation (unslashedServer.createFolderChain oddNames true)).1.map FolderHandle.url =
      .ok "http://jobtree.invalid/job/team%20A/job/50%2520/job/job/" := by decide +kernel
  obtain ⟨handle, hhandle, -⟩ := Except.map_eq_ok hcreated
  refine ⟨hs, he, ?_, ?_, handle, hhandle, hfound started true handle hhandle⟩
  · exact (hurls 2 (by decide) (by decide)).2.trans (by decide)
  · exact (hitems "a+b" (by decide)).2.trans (by decide)

end JobHierarchy
