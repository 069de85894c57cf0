import JobHierarchy.Proofs.Lookups
import JobHierarchy.Proofs.Polling
import JobHierarchy.Proofs.Running
/-!
# Waiting for a build

Whether the latest build of a job has a certain result can be read off a server (`Server.Meets`), and that is
what a look at the condition comes to, whatever goes wrong on the way (`JobServer.isMet_decides`). So waiting
over a server that changes between the looks ends well with the first server that meets the condition, unless
the timeout has passed at an earlier look; and then it ends with that look
(`JobServer.waitForBuildResult_first`).
-/

namespace JobHierarchy

open JobServer (BuildCondition)

namespace Memory

/-! ## What is looked for -/

/-- The latest build of the job can be read, and it has the desired result. -/
def Server.Meets (s : Server) (condition : BuildCondition) : Prop :=
  (∀ q ∈ condition.folder.prefixes, s.tree.holds q = true) ∧
    s.listingFailures.lookup (condition.folder.segments ++ [condition.job]) = none ∧
    ∃ node ∈ s.tree.get? (condition.folder.segments ++ [condition.job]),
      node.builds.getLast? = some (some condition.desired)

instance (s : Server) (condition : BuildCondition) : Decidable (s.Meets condition) :=
  inferInstanceAs (Decidable (_ ∧ _ ∧ _))

/-- `p` comes to `a` on the server `s` and leaves the server `s'`; no time passes. -/
def Server.Gives {α : Type} (s : Server) (p : Program α) (a : α) (s' : Server) : Prop :=
  ∀ w : World, w.server = s → ∃ log, w.run p = (a, { w with server := s', log })

namespace World

/-! ## Servers one after the other -/

/-- The server becomes another one after each interval. -/
def nextServer (states : Nat → Server) (interval k : Nat) : Change := ⟨(k + 1) * interval, fun _ => states (k + 1)⟩

/-- A world whose server is the next of the given ones after each interval, `n` times. -/
def passing (states : Nat → Server) (interval n : Nat) : World :=
  { World.ofServer (states 0) with pending := (List.range' 0 n).map (nextServer states interval) }

variable {states : Nat → Server} {interval n k : Nat}

/-- Of changes one interval apart, one is due after one interval. -/
theorem elapse_nextServer (hi : 0 < interval) (w : World) (hnow : w.now = k * interval)
    (hpending : w.pending = (List.range' k (n + 1)).map (nextServer states interval)) :
    (w.elapse interval).server = states (k + 1) ∧
      (w.elapse interval).pending = (List.range' (k + 1) n).map (nextServer states interval) := by
  have hlater : ∀ c ∈ (List.range' (k + 1) n).map (nextServer states interval), ¬ c.due ≤ w.now + interval := by
    intro c hc
    obtain ⟨j, hj, rfl⟩ := List.mem_map.1 hc
    have hlt : (k + 1) * interval < (j + 1) * interval :=
      Nat.mul_lt_mul_of_pos_right (Nat.succ_lt_succ (List.mem_range'_1.1 hj).1) hi
    rw [hnow, ← Nat.succ_mul]
    exact Nat.not_le_of_lt hlt
  have hfirst : (nextServer states interval k).due ≤ w.now + interval := by
    rw [hnow, ← Nat.succ_mul]
    exact Nat.le_refl _
  have hdue : dueBy (w.now + interval) w.pending = [nextServer states interval k] := by
    rw [dueBy, hpending, List.range'_succ, List.map_cons, List.filter_cons_of_pos (by simpa using hfirst),
      List.filter_eq_nil_iff.2 (by simpa using hlater), List.mergeSort_singleton]
  constructor
  · simp only [elapse, hdue]
    rfl
  · simp only [elapse]
    rw [hpending, List.range'_succ, List.map_cons, List.filter_cons_of_neg (by simpa using hfirst),
      List.filter_eq_self.2 (by simpa using hlater)]

/-- **Any servers can be met one after the other**, if the probes do nothing but look. -/
theorem passing_atProbe {α : Type} (hi : 0 < interval) (probe : Nat → Program α)
    (hlook : ∀ k ≤ n, ∀ v : World, v.server = states k →
      ∃ s' log, (v.run (probe (k + 1))).2 = { v with server := s', log }) (hk : k ≤ n) :
    ((passing states interval n).atProbe interval probe k).server = states k ∧
      ((passing states interval n).atProbe interval probe k).now = k * interval ∧
      ((passing states interval n).atProbe interval probe k).pending =
        (List.range' k (n - k)).map (nextServer states interval) := by
  induction k with
  | zero => exact ⟨rfl, (Nat.zero_mul interval).symm, rfl⟩
  | succ k ih =>
    obtain ⟨hserver, hnow, hpending⟩ := ih (Nat.le_of_succ_le hk)
    obtain ⟨s', log, hrun⟩ := hlook k (Nat.le_of_succ_le hk) _ hserver
    have hleft : n - k = n - (k + 1) + 1 := by omega
    rw [hleft] at hpending
    have hnext := elapse_nextServer hi
      { (passing states interval n).atProbe interval probe k with server := s', log } hnow hpending
    rw [atProbe, hrun, Nat.succ_mul, ← hnow]
    exact ⟨hnext.1, rfl, hnext.2⟩

end World

end Memory

namespace JobServer

open Memory Memory.Server

variable {server : JobServer} {s : Server} {folder : FolderPath} {name : String}

/-! ## The latest build -/

theorem mem_of_latestBuild? : ∀ {builds : List BuildHandle} {build : BuildHandle},
    latestBuild? builds = some build → build ∈ builds
  | first :: rest, build, h => by
    rw [latestBuild?] at h
    split at h
    · next later hlater =>
      split at h
      · cases h
        exact List.mem_cons_of_mem _ (mem_of_latestBuild? hlater)
      · cases h
        exact List.mem_cons_self
    · cases h
      exact List.mem_cons_self

theorem latestBuild?_cons_of_lt {build : BuildHandle} {rest : List BuildHandle}
    (h : ∀ b ∈ rest, b.number < build.number) : latestBuild? (build :: rest) = some build := by
  rw [latestBuild?]
  cases hrest : latestBuild? rest with
  | none => rfl
  | some later => exact if_neg (Nat.not_le_of_lt (h later (mem_of_latestBuild? hrest)))

/-- Of the builds of an item, the latest is the last. -/
theorem latestBuild?_numbers (path : ItemPath) {node : Node} (h : node.builds ≠ []) :
    latestBuild? (node.numbers.map (buildHandle path)) = some (buildHandle path node.builds.length) := by
  obtain ⟨m, hm⟩ : ∃ m, node.builds.length = m + 1 := Nat.exists_eq_succ_of_ne_zero (by simpa using h)
  have hnumbers : node.numbers = (m + 1) :: (List.range' 1 m).reverse := by
    rw [Node.numbers, hm, List.range'_1_concat, List.reverse_concat, Nat.add_comm]
  rw [hnumbers, List.map_cons, hm]
  refine latestBuild?_cons_of_lt fun b hb => ?_
  obtain ⟨number, hnumber, rfl⟩ := List.mem_map.1 hb
  have hrange := List.mem_range'_1.1 (List.mem_reverse.1 hnumber)
  change number < m + 1
  omega

section
variable {node : Node} {found : List Call}

/-- Nothing is read of a job whose builds cannot be listed. -/
theorem lastBuildResult_hidden {status : Nat} (hn : IsItemName name)
    (hfind : s.Yields (server.findJob folder name) (.ok ⟨scopeOf folder.segments, name⟩) (s.recordAll found))
    (hf : s.listingFailures.lookup (folder.segments ++ [name]) = some status) :
    ∃ e calls, s.Yields (server.lastBuildResult folder name) (.error e) (s.recordAll calls) := by
  have hlist := yields_listBuilds_failing (s := s.recordAll found) folder.named hn hf
  rw [recordAll_recordAll] at hlist
  exact ⟨_, _, hfind.bind (hlist.bind_error _)⟩

/-- Of a job whose builds can be listed, the latest is read, if there is one. -/
theorem lastBuildResult_listed (hn : IsItemName name)
    (hfind : s.Yields (server.findJob folder name) (.ok ⟨scopeOf folder.segments, name⟩) (s.recordAll found))
    (hf : s.listingFailures.lookup (folder.segments ++ [name]) = none)
    (hnode : s.tree.get? (folder.segments ++ [name]) = some node) (hlen : node.builds.length < UInt32.size) :
    ∃ calls, s.Yields (server.lastBuildResult folder name)
      (match node.builds.getLast? with
        | some result => .ok result
        | none => .error (.notFound "build" (folder.displayItem name))) (s.recordAll calls) := by
  have hlist := yields_listBuilds (s := s.recordAll found) folder.named hn hnode hf hlen
  rw [recordAll_recordAll] at hlist
  by_cases hempty : node.builds = []
  · refine ⟨found ++ [.listBuilds (folder.segments ++ [name])], hfind.bind (hlist.bind ?_)⟩
    rw [Node.numbers, hempty]
    exact yields_throw _ _
  · have hpos := List.length_pos_iff.2 hempty
    have hread := yields_buildResult
      (s := s.recordAll (found ++ [.listBuilds (folder.segments ++ [name])]))
      (ItemPath.named_append.2 ⟨folder.named, ItemPath.named_singleton.2 hn⟩) hnode
      (Node.mem_numbers.2 ⟨hpos, Nat.le_refl _⟩)
    obtain ⟨result, hresult⟩ := Option.isSome_iff_exists.1 (List.getLast?_isSome.2 hempty)
    rw [recordAll_recordAll, ← List.getLast?_eq_getElem?, hresult] at hread
    refine ⟨found ++ [.listBuilds (folder.segments ++ [name])] ++
      [.buildResult (folder.segments ++ [name]) node.builds.length], hfind.bind (hlist.bind ?_)⟩
    rw [latestBuild?_numbers _ hempty, hresult]
    exact hread

end

/-- **The result of the latest build** is to be had exactly where it is the one that meets a condition. -/
theorem lastBuildResult_meets (server : JobServer) (folder : FolderPath) (hn : IsItemName name)
    (hnum : s.tree.Numbered) :
    ∃ x calls, s.Yields (server.lastBuildResult folder name) x (s.recordAll calls) ∧
      ∀ desired, x = .ok (some desired) ↔ s.Meets ⟨folder, name, desired⟩ := by
  have hfind := findJob_looks server s folder hn
  cases hjob : s.tree.findJob folder name with
  | error e =>
    rw [hjob] at hfind
    refine ⟨_, _, hfind.bind_error _, fun desired => ⟨fun h => (by cases h), ?_⟩⟩
    rintro ⟨hq, -, node, hnode, -⟩
    rw [Tree.findJob_eq_ok_iff.2 ⟨hq, Tree.contains_iff.2 ⟨node, hnode⟩, rfl⟩] at hjob
    cases hjob
  | ok job =>
    obtain ⟨hq, hc, rfl⟩ := Tree.findJob_eq_ok_iff.1 hjob
    obtain ⟨node, hnode⟩ := Tree.contains_iff.1 hc
    rw [hjob] at hfind
    cases hf : s.listingFailures.lookup (folder.segments ++ [name]) with
    | some status =>
      obtain ⟨e, calls, hy⟩ := lastBuildResult_hidden hn hfind hf
      refine ⟨_, calls, hy, fun desired => ⟨fun h => (by cases h), ?_⟩⟩
      rintro ⟨-, hnone, -⟩
      rw [hf] at hnone
      cases hnone
    | none =>
      obtain ⟨calls, hy⟩ := lastBuildResult_listed hn hfind hf hnode (Tree.numbered_iff.1 hnum _ _ hnode)
      have hmeets : ∀ desired, s.Meets ⟨folder, name, desired⟩ ↔ node.builds.getLast? = some (some desired) := by
        intro desired
        simp only [Meets, hf, hnode, Option.mem_some_iff, exists_eq_left', true_and]
        exact and_iff_right hq
      refine ⟨_, calls, hy, fun desired => ?_⟩
      rw [hmeets]
      cases node.builds.getLast? <;> simp

/-! ## One look -/

/-- **A look at the condition** tells whether it is met, and does nothing else. -/
theorem isMet_decides (server : JobServer) (condition : BuildCondition) (hn : IsItemName condition.job)
    (hnum : s.tree.Numbered) :
    ∃ calls, s.Gives (server.isMet condition) (decide (s.Meets condition)) (s.recordAll calls) := by
  obtain ⟨x, calls, hy, hx⟩ := lastBuildResult_meets server condition.folder hn hnum
  refine ⟨calls, fun w hw => ?_⟩
  obtain ⟨log, hlog⟩ := hy w hw
  have hx := hx condition.desired
  unfold World.runOperation at hlog
  rw [isMet, World.run_bind, hlog]
  cases x with
  | ok result =>
    have hmeets : decide (s.Meets condition) = decide (result = some condition.desired) :=
      decide_eq_decide.2 (hx.symm.trans (by simp))
    rw [hmeets]
    exact ⟨log, rfl⟩
  | error e =>
    have hnot : ¬ s.Meets condition := fun h => by cases hx.2 h
    rw [decide_eq_false hnot]
    exact ⟨_, rfl⟩

/-! ## The whole wait -/

section
variable {condition : BuildCondition} {w : World} {states : Nat → Server} {n k timeout : Nat} {poller : Poller}

/-- The world, the answer and the time at the look `k`, if the looks are at numbered servers up to then. -/
theorem probed_isMet (server : JobServer) (hn : IsItemName condition.job)
    (hseen : ∀ k ≤ n, (w.atProbe poller.interval (fun _ => server.isMet condition) k).server = states k)
    (hnum : ∀ k ≤ n, (states k).tree.Numbered) (hk : k ≤ n) :
    ∃ calls log, w.probed poller.interval (fun _ => server.isMet condition) k =
      (decide ((states k).Meets condition),
        { w.atProbe poller.interval (fun _ => server.isMet condition) k with
          server := (states k).recordAll calls, log }) := by
  obtain ⟨calls, hlook⟩ := isMet_decides server condition hn (hnum k hk)
  obtain ⟨log, hlog⟩ := hlook _ (hseen k hk)
  exact ⟨calls, log, hlog⟩

/-- Looks take no time: they come one interval after the other. -/
theorem now_atProbe_isMet (server : JobServer) (hn : IsItemName condition.job)
    (hseen : ∀ k ≤ n, (w.atProbe poller.interval (fun _ => server.isMet condition) k).server = states k)
    (hnum : ∀ k ≤ n, (states k).tree.Numbered) (hk : k ≤ n) :
    (w.atProbe poller.interval (fun _ => server.isMet condition) k).now = w.now + k * poller.interval := by
  induction k with
  | zero => rw [Nat.zero_mul]; rfl
  | succ k ih =>
    have hk' : k ≤ n := Nat.le_of_succ_le hk
    obtain ⟨calls, log, hprobed⟩ := probed_isMet server hn hseen hnum hk'
    have hnow : (w.atProbe poller.interval (fun _ => server.isMet condition) (k + 1)).now =
        (w.probed poller.interval (fun _ => server.isMet condition) k).2.now + poller.interval := rfl
    rw [hnow, hprobed, Nat.succ_mul, ← Nat.add_assoc, ← ih hk']

end

/-- A look, as a probe of the poll. -/
def look (server : JobServer) (condition : BuildCondition) : Program (Outcome Unit) := do
  if ← server.isMet condition then return .ready () else return .notYet

theorem run_look (server : JobServer) (condition : BuildCondition) (v : World) :
    v.run (server.look condition) =
      (if (v.run (server.isMet condition)).1 then .ready () else .notYet, (v.run (server.isMet condition)).2) := by
  rw [look, World.run_bind]
  cases (v.run (server.isMet condition)).1 <;> rfl

theorem atProbe_look (server : JobServer) (condition : BuildCondition) (w : World) (interval k : Nat) :
    w.atProbe interval (fun _ => server.look condition) k =
      w.atProbe interval (fun _ => server.isMet condition) k :=
  w.atProbe_congr interval _ (fun v _ => by rw [run_look]) k

theorem probed_look (server : JobServer) (condition : BuildCondition) (w : World) (interval k : Nat) :
    w.probed interval (fun _ => server.look condition) k =
      (if (w.probed interval (fun _ => server.isMet condition) k).1 then .ready () else .notYet,
        (w.probed interval (fun _ => server.isMet condition) k).2) := by
  rw [World.probed, atProbe_look, run_look]
  rfl

section
variable {condition : BuildCondition} {w : World} {states : Nat → Server} {n k : Nat} {poller : Poller}

/-- What the wait ends with after the look `k`. -/
theorem ending?_look (server : JobServer) (text : String) (timeout : Nat) (hn : IsItemName condition.job)
    (hseen : ∀ k ≤ n, (w.atProbe poller.interval (fun _ => server.isMet condition) k).server = states k)
    (hnum : ∀ k ≤ n, (states k).tree.Numbered) (hk : k ≤ n) :
    w.ending? poller text timeout (fun _ => server.look condition) k =
      if (states k).Meets condition then some (.ok ())
      else if timeout ≤ k * poller.interval then some (.error (Poller.timeoutError text (k * poller.interval)))
      else none := by
  obtain ⟨calls, log, hprobed⟩ := probed_isMet server hn hseen hnum hk
  have hnow := now_atProbe_isMet server hn hseen hnum hk
  have hwaited : w.waited poller.interval (fun _ => server.look condition) k = k * poller.interval := by
    rw [World.waited, probed_look, hprobed]
    dsimp only
    omega
  rw [World.ending?, hwaited, probed_look, hprobed]
  by_cases hmet : (states k).Meets condition
  · simp only [hmet, decide_true, if_true]
    rfl
  · simp only [hmet, decide_false, Bool.false_eq_true, if_false, Outcome.verdict]
    split <;> rfl

/-- **Waiting for a build.** Over any servers that the looks meet, one interval after the other: all looks
before the last do not meet the condition and come before the timeout. At the last look either the condition
is met and the wait ends well, or the timeout has passed and that is the error. The looks leave nothing but a
record of their requests. Their number does not matter, unless the program is one that a count beyond 32 bits stops:
such a wait ends without a result when it comes to the look `2 ^ 32`, and is no different before. -/
theorem waitForBuildResult_first (server : JobServer) (poller : Poller) (hi : 0 < poller.interval)
    (condition : BuildCondition) (hn : IsItemName condition.job) (timeout n : Nat)
    (hlast : timeout ≤ n * poller.interval) (w : World) (states : Nat → Server)
    (hseen : ∀ k ≤ n, (w.atProbe poller.interval (fun _ => server.isMet condition) k).server = states k)
    (hnum : ∀ k ≤ n, (states k).tree.Numbered) :
    ∃ k x w', w.runOperation (server.waitForBuildResult poller condition timeout) = (x, w') ∧ k ≤ n ∧
      (∀ j < k, ¬ (states j).Meets condition ∧ j * poller.interval < timeout) ∧
      ((states k).Meets condition ∧ x = .ok () ∨
        ¬ (states k).Meets condition ∧ timeout ≤ k * poller.interval ∧
          x = .error (Poller.timeoutError
            (condition.folder.displayItem condition.job ++ " to finish with " ++ condition.desired.word)
            (k * poller.interval))) ∧
      (∀ j ≤ k, (w.atProbe poller.interval (fun _ => server.isMet condition) j).now = w.now + j * poller.interval) ∧
      w'.now = w.now + k * poller.interval ∧ (∃ calls, w'.server = (states k).recordAll calls) ∧
      w.run (server.waitForBuildResultUnder .stops poller condition timeout) =
        if k + 1 < UInt32.size then (some x, w')
        else (none, w.atProbe poller.interval (fun _ => server.isMet condition) (UInt32.size - 1)) := by
  obtain ⟨k, x, text, w', hbefore, hx, -, hw', hrun, hstops⟩ := World.poll_ends w poller condition.goal timeout
    (fun _ => server.look condition) hi
  have hending := fun {j : Nat} (hj : j ≤ n) => ending?_look server condition.goal timeout hn hseen hnum hj
  -- the look `n` comes no earlier than the timeout
  have hk : k ≤ n := by
    refine Nat.le_of_not_lt fun hlt => ?_
    have hnone := hbefore n hlt
    rw [hending (Nat.le_refl n), if_pos hlast] at hnone
    split at hnone <;> cases hnone
  obtain ⟨calls, log', hprobed⟩ := probed_isMet server hn hseen hnum hk
  have hnow := fun {j : Nat} (hj : j ≤ n) => now_atProbe_isMet server hn hseen hnum hj
  rw [probed_look, hprobed] at hw'
  rw [atProbe_look] at hstops
  refine ⟨k, x, w', hrun, hk, fun j hj => ?_, ?_, fun j hj => hnow (hj.trans hk), ?_, ⟨calls, ?_⟩, hstops⟩
  · have hnone := hbefore j hj
    rw [hending (hj.le.trans hk)] at hnone
    split at hnone
    · cases hnone
    · next hnot =>
      split at hnone
      · cases hnone
      · next hlt => exact ⟨hnot, Nat.lt_of_not_le hlt⟩
  · rw [hending hk] at hx
    split at hx
    · next hmet =>
      cases hx
      exact .inl ⟨hmet, rfl⟩
    · next hnot =>
      split at hx
      · next hle =>
        cases hx
        exact .inr ⟨hnot, hle, rfl⟩
      · cases hx
  · rw [hw']
    exact hnow hk
  · rw [hw']

end

/-- Looks at a condition can meet any numbered servers. -/
theorem passing_seen (server : JobServer) (condition : BuildCondition) (hn : IsItemName condition.job)
    (interval : Nat) (hi : 0 < interval) {states : Nat → Server} {n : Nat}
    (hnum : ∀ k ≤ n, (states k).tree.Numbered) :
    ∀ k ≤ n, ((World.passing states interval n).atProbe interval (fun _ => server.isMet condition) k).server =
      states k := by
  intro k hk
  refine (World.passing_atProbe hi _ (fun j hj v hv => ?_) hk).1
  obtain ⟨calls, hlook⟩ := isMet_decides server condition hn (hnum j hj)
  obtain ⟨log, hlog⟩ := hlook v hv
  exact ⟨_, log, congrArg Prod.snd hlog⟩

/-- A folder that is not there, then a build that runs, then builds that cannot be listed, and then a build
after the first one. -/
def unsettled : Nat → Server
  | 0 => Server.empty
  | 1 => { Server.empty with
      tree := (Tree.empty.insert ["ci"] (.ofKind .folder)).insert ["ci", "50 %"] ⟨.job, none, [none]⟩ }
  | 2 => { Server.empty with
      tree := (Tree.empty.insert ["ci"] (.ofKind .folder)).insert ["ci", "50 %"] ⟨.job, none, [some .success]⟩
      listingFailures := [(["ci", "50 %"], 500)] }
  | _ => { Server.empty with
      tree := (Tree.empty.insert ["ci"] (.ofKind .folder)).insert ["ci", "50 %"]
        ⟨.job, none, [some .failure, some .success]⟩ }

/-- The look at 1200 ms is the first to meet the condition, and the first after the timeout. With a shorter
timeout the wait ends before. -/
theorem waitForBuildResult_first_unsettled :
    ∃ w : World,
      (∀ k ≤ 3, (w.atProbe 400 (fun _ => (ofUrl Memory.baseUrl).isMet ⟨⟨["ci"], by decide⟩, "50 %", .success⟩)
        k).server = unsettled k) ∧
      (∀ k ≤ 3, (unsettled k).tree.Numbered) ∧
      (∃ w', w.runOperation ((ofUrl Memory.baseUrl).waitForBuildResult ⟨400⟩
        ⟨⟨["ci"], by decide⟩, "50 %", .success⟩ 1000) = (.ok (), w') ∧ w'.now = w.now + 1200) ∧
      ∃ w', w.runOperation ((ofUrl Memory.baseUrl).waitForBuildResult ⟨400⟩
        ⟨⟨["ci"], by decide⟩, "50 %", .success⟩ 500) =
          (.error (.timeout "ci/50 % to finish with SUCCESS" 800000), w') ∧ w'.now = w.now + 800 := by
  have hnum : ∀ k ≤ 3, (unsettled k).tree.Numbered := by decide
  have hn : IsItemName "50 %" := by decide
  have hmet : ∀ k ≤ 3, (unsettled k).Meets ⟨⟨["ci"], by decide⟩, "50 %", .success⟩ ↔ k = 3 := by decide
  have hseen := passing_seen (ofUrl Memory.baseUrl) ⟨⟨["ci"], by decide⟩, "50 %", .success⟩ hn 400 (by decide) hnum
  refine ⟨_, hseen, hnum, ?_, ?_⟩
  · obtain ⟨k, x, w', hrun, hk, -, hend, -, hnow, -⟩ := waitForBuildResult_first (ofUrl Memory.baseUrl) ⟨400⟩
      (by decide) ⟨⟨["ci"], by decide⟩, "50 %", .success⟩ hn 1000 3 (by decide) _ unsettled hseen hnum
    rw [hmet k hk] at hend
    rcases hend with ⟨rfl, rfl⟩ | ⟨hne, hle, -⟩
    · exact ⟨w', hrun, hnow⟩
    · have hle : 1000 ≤ k * 400 := hle
      omega
  · obtain ⟨k, x, w', hrun, hk, hbefore, hend, -, hnow, -⟩ := waitForBuildResult_first (ofUrl Memory.baseUrl) ⟨400⟩
      (by decide) ⟨⟨["ci"], by decide⟩, "50 %", .success⟩ hn 500 3 (by decide) _ unsettled hseen hnum
    have hsecond : ¬ 2 < k := fun hlt => by
      have hle : 2 * 400 < 500 := (hbefore 2 hlt).2
      omega
    rw [hmet k hk] at hend
    rcases hend with ⟨rfl, -⟩ | ⟨-, hle, rfl⟩
    · omega
    · have hle : 500 ≤ k * 400 := hle
      obtain rfl : k = 2 := by omega
      exact ⟨w', hrun, hnow⟩

end JobServer

end JobHierarchy
