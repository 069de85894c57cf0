import JobHierarchy.Proofs.Independence
/-!
# What a run of scenarios tells

The setup of a scenario counts as a step, so a scenario is a row of stages (`Spec.stages`). A run takes them one
after the other, each in the world that the ones before it left, up to the first that does not pass
(`run_stages`). So its entries are those of a first part of the stages, and the world that it leaves is the one
after just these stages, whatever they came to (`runScenario_recounts`). In a suite every scenario is told of in
its place, and the counts add up (`runAll_recounts`).

A scenario succeeds if its setup and its steps pass. Steps are only taken after a setup that has passed, so where
there are any they tell alone; of a scenario without steps they tell nothing (`not_success_iff_steps`).
-/

namespace JobHierarchy

open Memory

variable {α : Type}

/-! ## The log plays no role -/

theorem Memory.World.run_withLog (w : World) (log : Array LogEvent) (p : Program α) :
    ∃ log', ({ w with log } : World).run p = ((w.run p).1, { (w.run p).2 with log := log' }) := by
  induction p generalizing w log with
  | done value => exact ⟨log, rfl⟩
  | request r next ih => exact ih (w.server.perform r).1 { w with server := (w.server.perform r).2 } log
  | report event next ih =>
    obtain ⟨log', hlog'⟩ := ih w (log.push event)
    obtain ⟨log'', hlog''⟩ := ih w (w.log.push event)
    refine ⟨log', ?_⟩
    have hleft : ({ w with log } : World).run (.report event next) =
        ({ w with log := log.push event } : World).run next := rfl
    have hright : w.run (.report event next) = ({ w with log := w.log.push event } : World).run next := rfl
    rw [hleft, hright, hlog', hlog'']
  | sleep millis next ih => exact ih (w.elapse millis) log
  | clock next ih => exact ih w.now w log
  | census next ih => exact ih _ w log

namespace Scenario

variable {connection : Connection} {spec : Spec} {w : World}

/-! ## Stages -/

/-- A part of a scenario: its setup, or one of its steps. -/
inductive Stage where
  | setup
  | step (step : Step)
  deriving DecidableEq, Repr

namespace Stage

def label : Stage → String
  | .setup => "setup"
  | .step s => s.label

def operation (connection : Connection) (spec : Spec) : Stage → Operation (Option String)
  | .setup => applyTarget connection.server spec
  | .step s => execute connection spec.folder s

/-- What a stage comes to in a world, and the world after it. -/
def outcome (connection : Connection) (spec : Spec) (w : World) (stage : Stage) :
    Except JobHierarchy.Error (Option String) × World :=
  w.runOperation (stage.operation connection spec)

/-- How a stage that is taken in a world is entered in the results. -/
def entry (connection : Connection) (spec : Spec) (w : World) (stage : Stage) : StepResult :=
  .ofOutcome stage.label ((stage.outcome connection spec w).2.now - w.now)
    ((stage.outcome connection spec w).1.mapError .api)

end Stage

/-- The stages of a scenario, in order. -/
def Spec.stages (spec : Spec) : List Stage := .setup :: spec.steps.map .step

/-- The world after stages, one after the other, whatever each of them came to. -/
def Spec.performed (connection : Connection) (spec : Spec) (w : World) (stages : List Stage) : World :=
  stages.foldl (fun w stage => (stage.outcome connection spec w).2) w

/-- The entries of stages up to the first that does not pass. -/
def Spec.entries (connection : Connection) (spec : Spec) (w : World) : List Stage → List StepResult
  | [] => []
  | stage :: rest =>
    if (stage.entry connection spec w).success then
      stage.entry connection spec w :: spec.entries connection (stage.outcome connection spec w).2 rest
    else [stage.entry connection spec w]

theorem StepResult.success_iff {e : StepResult} : e.success = true ↔ e.status = .passed := decide_eq_true_iff

theorem StepResult.success_eq_false_iff {e : StepResult} : e.success = false ↔ e.status ≠ .passed :=
  decide_eq_false_iff_not

theorem StepResult.step_ofOutcome (step : String) (millis : Nat) (x : Except Error (Option String)) :
    (StepResult.ofOutcome step millis x).step = step := by
  cases x <;> rfl

/-- An entry that did not pass has a text to say why. -/
theorem StepResult.exists_error {step : String} {millis : Nat} {x : Except Error (Option String)}
    (h : (StepResult.ofOutcome step millis x).success = false) :
    ∃ text, (StepResult.ofOutcome step millis x).error = some text := by
  cases x with
  | ok detail => cases h
  | error e => exact ⟨e.message, rfl⟩

/-! ## The entries -/

section
variable (connection spec)

theorem length_entries_le : ∀ (stages : List Stage) (w : World),
    (spec.entries connection w stages).length ≤ stages.length
  | [], w => Nat.le_refl 0
  | stage :: rest, w => by
    have ih := length_entries_le rest (stage.outcome connection spec w).2
    rw [Spec.entries]
    split
    · exact Nat.succ_le_succ ih
    · simp

/-- Each entry is that of the stage in its place, taken in the world that the stages before it left. -/
theorem getElem?_entries : ∀ (stages : List Stage) (w : World) (i : Nat) (e : StepResult),
    (spec.entries connection w stages)[i]? = some e →
    ∃ stage, stages[i]? = some stage ∧
      e = stage.entry connection spec (spec.performed connection w (stages.take i))
  | [], w, i, e, h => by simp [Spec.entries] at h
  | stage :: rest, w, i, e, h => by
    rw [Spec.entries] at h
    cases i with
    | zero =>
      refine ⟨stage, rfl, ?_⟩
      split at h <;> exact (Option.some.inj h).symm
    | succ i =>
      split at h
      · exact getElem?_entries rest _ i e h
      · simp at h

theorem passed_of_mem_dropLast : ∀ (stages : List Stage) (w : World),
    ∀ e ∈ (spec.entries connection w stages).dropLast, e.status = .passed
  | [], w, e, h => by simp [Spec.entries] at h
  | stage :: rest, w, e, h => by
    rw [Spec.entries] at h
    split at h
    · next hpassed =>
      rcases hrest : spec.entries connection (stage.outcome connection spec w).2 rest with _ | ⟨next, more⟩
      · simp [hrest] at h
      · rw [hrest, List.dropLast_cons_cons, List.mem_cons, ← hrest] at h
        rcases h with rfl | h
        · exact StepResult.success_iff.1 hpassed
        · exact passed_of_mem_dropLast rest _ e h
    · simp at h

/-- If all that was entered passed, all was entered. -/
theorem length_entries_of_passed : ∀ (stages : List Stage) (w : World),
    (∀ e ∈ spec.entries connection w stages, e.status = .passed) →
    (spec.entries connection w stages).length = stages.length
  | [], w, h => rfl
  | stage :: rest, w, h => by
    rw [Spec.entries] at h ⊢
    split at h
    · next hpassed =>
      rw [if_pos hpassed, List.length_cons, List.length_cons]
      exact congrArg (· + 1) (length_entries_of_passed rest _ fun e he => h e (List.mem_cons_of_mem _ he))
    · next hfailed => exact absurd (StepResult.success_iff.2 (h _ List.mem_cons_self)) hfailed

/-- The labels of the entries are those of a first part of the stages. -/
theorem labels_entries : ∀ (stages : List Stage) (w : World),
    (spec.entries connection w stages).map (·.step) =
      (stages.take (spec.entries connection w stages).length).map Stage.label
  | [], w => rfl
  | stage :: rest, w => by
    have hlabel : (stage.entry connection spec w).step = stage.label := StepResult.step_ofOutcome ..
    rw [Spec.entries]
    split
    · rw [List.map_cons, hlabel, labels_entries rest, List.length_cons, List.take_succ_cons, List.map_cons]
    · simp [hlabel]

/-! ## A run of stages -/

/-- Stages up to the first that does not pass. -/
def takeStages : List Stage → Program (List StepResult)
  | [] => return []
  | stage :: rest => do
    let result ← timed stage.label (stage.operation connection spec)
    if result.success then return result :: (← takeStages rest)
    else return [result]

theorem runSteps_eq (steps : List Step) :
    runSteps connection spec.folder steps = takeStages connection spec (steps.map .step) := by
  induction steps with
  | nil => rfl
  | cons step rest ih =>
    rw [runSteps, ih]
    rfl

theorem scenarioSteps_eq : scenarioSteps connection spec =
    Program.report ⟨.debug, "Running scenario: " ++ spec.name⟩ (.done ()) >>= fun _ =>
      takeStages connection spec spec.stages := by
  rw [scenarioSteps, runSteps_eq]
  refine congrArg _ (funext fun _ => congrArg _ (funext fun setup => ?_))
  split
  · rfl
  · rfl

/-- **A run of stages** gives their entries and leaves the world after the stages that were entered. -/
theorem run_stages : ∀ (stages : List Stage) (w : World),
    w.run (takeStages connection spec stages) = (spec.entries connection w stages,
      spec.performed connection w (stages.take (spec.entries connection w stages).length))
  | [], w => rfl
  | stage :: rest, w => by
    have htimed : w.run (timed stage.label (stage.operation connection spec)) =
        (stage.entry connection spec w, (stage.outcome connection spec w).2) := by
      rw [timed, World.run_bind, World.run_bind, World.run_bind]
      rfl
    rw [takeStages, World.run_bind, htimed, Spec.entries]
    dsimp only
    split
    · rw [World.run_bind, run_stages rest]
      rfl
    · rfl

theorem run_runScenario (w : World) :
    ∃ millis log, w.run (runScenario connection spec) =
      (.ofSteps spec.name millis (spec.entries connection w spec.stages),
        { spec.performed connection w (spec.stages.take (spec.entries connection w spec.stages).length) with
          log := log }) := by
  obtain ⟨log, hlog⟩ := w.run_withLog (w.log.push ⟨.debug, "Running scenario: " ++ spec.name⟩)
    (takeStages connection spec spec.stages)
  rw [run_stages connection spec spec.stages w] at hlog
  have hsteps : w.run (scenarioSteps connection spec) = (spec.entries connection w spec.stages,
      { spec.performed connection w (spec.stages.take (spec.entries connection w spec.stages).length) with
        log := log }) := by
    rw [scenarioSteps_eq, World.run_bind]
    exact hlog
  have hrun : w.run (runScenario connection spec) = (.ofSteps spec.name
      ((w.run (scenarioSteps connection spec)).2.now - w.now) (w.run (scenarioSteps connection spec)).1,
      (w.run (scenarioSteps connection spec)).2) := by
    rw [runScenario_eq, World.run_bind, World.run_bind]
    rfl
  rw [hsteps] at hrun
  exact ⟨_, log, hrun⟩

end

/-! ## What the result of a scenario tells -/

theorem Result.success_iff (name : String) (millis : Nat) (entries : List StepResult) :
    (Result.ofSteps name millis entries).success = true ↔ ∀ e ∈ entries, e.status = .passed := by
  simp [Result.ofSteps, StepResult.success_iff]

section
variable {name : String} {millis : Nat} {entries : List StepResult}
  (hbefore : ∀ e ∈ entries.dropLast, e.status = .passed)
include hbefore

/-- Only the last entry can be one that did not pass. -/
theorem getLast?_of_not_passed {e : StepResult} (he : e ∈ entries) (hnot : e.status ≠ .passed) :
    entries.getLast? = some e := by
  obtain ⟨last, hlast⟩ : ∃ last, entries.getLast? = some last :=
    ⟨_, List.getLast?_eq_some_getLast (List.ne_nil_of_mem he)⟩
  rw [← List.dropLast_append_getLast? last hlast, List.mem_append, List.mem_singleton] at he
  rcases he with he | rfl
  · exact absurd (hbefore e he) hnot
  · exact hlast

theorem Result.timedOut_iff : (Result.ofSteps name millis entries).timedOut = true ↔
    ∃ last, entries.getLast? = some last ∧ last.status = .timedOut := by
  have hany : (Result.ofSteps name millis entries).timedOut = true ↔ ∃ e ∈ entries, e.status = .timedOut := by
    simp [Result.timedOut, Result.ofSteps]
  rw [hany]
  constructor
  · rintro ⟨e, he, htimed⟩
    refine ⟨e, getLast?_of_not_passed hbefore he ?_, htimed⟩
    rw [htimed]
    decide
  · rintro ⟨last, hlast, htimed⟩
    exact ⟨last, List.mem_of_getLast? hlast, htimed⟩

/-- A scenario fails with its last entry. -/
theorem Result.failure (hfailed : (Result.ofSteps name millis entries).success = false) :
    ∃ last, entries.getLast? = some last ∧ last.status ≠ .passed ∧
      (Result.ofSteps name millis entries).error = some (last.step ++ ": " ++ last.error.getD "failed") := by
  cases hfind : entries.find? fun e => !e.success with
  | none => simp [Result.ofSteps, hfind] at hfailed
  | some e =>
    have hnot : e.status ≠ .passed := by
      have hfound := List.find?_some hfind
      rw [Bool.not_eq_true'] at hfound
      exact StepResult.success_eq_false_iff.1 hfound
    refine ⟨e, getLast?_of_not_passed hbefore (List.mem_of_find?_eq_some hfind) hnot, hnot, ?_⟩
    simp [Result.ofSteps, hfind]

end

theorem forall_mem_iff_head_tail {P : α → Prop} {as : List α} (hne : as ≠ []) :
    (∀ a ∈ as, P a) ↔ (∃ a, as.head? = some a ∧ P a) ∧ ∀ a ∈ as.tail, P a := by
  obtain ⟨first, rest, rfl⟩ := List.exists_cons_of_ne_nil hne
  simp

theorem mem_dropLast_or_mem_tail {a : α} : ∀ {as : List α}, 2 ≤ as.length → a ∈ as → a ∈ as.dropLast ∨ a ∈ as.tail
  | first :: second :: rest, _, h => by
    rcases List.mem_cons.1 h with rfl | h
    · exact .inl List.mem_cons_self
    · exact .inr h

/-- The result `r` tells of a run of `spec` in the world `w` that took the setup and the first `n` steps and left
the server `left`. -/
structure Recounts (connection : Connection) (spec : Spec) (w : World) (n : Nat) (r : Result) (left : Server) :
    Prop where
  name_eq : r.name = spec.name
  le_length : n ≤ spec.steps.length
  labels_eq : r.steps.map (·.step) = "setup" :: (spec.steps.take n).map Step.label
  /-- An entry says what its stage came to in the world that the stages before it left. -/
  told : ∀ (i : Nat) e, r.steps[i]? = some e → ∃ stage, spec.stages[i]? = some stage ∧
    e = stage.entry connection spec (spec.performed connection w (spec.stages.take i))
  passed_before : ∀ e ∈ r.steps.dropLast, e.status = .passed
  success_iff : r.success = true ↔ ∀ e ∈ r.steps, e.status = .passed
  /-- The setup passed, and all steps were taken and passed. -/
  success_iff_all : r.success = true ↔ (∃ e, r.steps.head? = some e ∧ e.status = .passed) ∧
    n = spec.steps.length ∧ ∀ e ∈ r.steps.tail, e.status = .passed
  /-- Where there are steps, they tell without the setup: they are taken only once it has passed. Where there are
  none, the setup alone decides. -/
  success_iff_steps : spec.steps ≠ [] →
    (r.success = true ↔ n = spec.steps.length ∧ ∀ e ∈ r.steps.tail, e.status = .passed)
  failure : r.success = false → ∃ last text, r.steps.getLast? = some last ∧ last.status ≠ .passed ∧
    last.error = some text ∧ r.error = some (last.step ++ ": " ++ text)
  timedOut_iff : r.timedOut = true ↔ ∃ last, r.steps.getLast? = some last ∧ last.status = .timedOut
  /-- What was not entered was not done. -/
  left_eq : left = (spec.performed connection w (.setup :: (spec.steps.take n).map .step)).server

/-- **The result of a scenario tells what was done**, stage by stage and no more. -/
theorem runScenario_recounts (connection : Connection) (spec : Spec) (w : World) :
    ∃ n, Recounts connection spec w n (w.run (runScenario connection spec)).1
      (w.run (runScenario connection spec)).2.server := by
  obtain ⟨millis, log, hrun⟩ := run_runScenario connection spec w
  have hle := length_entries_le connection spec spec.stages w
  have hlabels := labels_entries connection spec spec.stages w
  have htold := getElem?_entries connection spec spec.stages w
  have hbefore := passed_of_mem_dropLast connection spec spec.stages w
  have hall := length_entries_of_passed connection spec spec.stages w
  have hstages : spec.stages.length = spec.steps.length + 1 := by simp [Spec.stages]
  -- the setup is always entered
  obtain ⟨n, hn⟩ : ∃ n, (spec.entries connection w spec.stages).length = n + 1 := by
    rw [Spec.stages, Spec.entries]
    split
    · exact ⟨_, rfl⟩
    · exact ⟨0, rfl⟩
  have htake : spec.stages.take (n + 1) = .setup :: (spec.steps.take n).map .step := by
    rw [Spec.stages, List.take_succ_cons, List.map_take]
  rw [hn, htake] at hrun hlabels
  rw [List.map_cons, List.map_map] at hlabels
  have hsuccess := Result.success_iff spec.name millis (spec.entries connection w spec.stages)
  rw [hrun]
  have hwhole (h : ∀ e ∈ spec.entries connection w spec.stages, e.status = .passed) : n = spec.steps.length := by
    have hlength := hall h
    omega
  have hparts := forall_mem_iff_head_tail (P := fun e : StepResult => e.status = .passed)
    (List.ne_nil_of_length_eq_add_one hn)
  refine ⟨n, rfl, by omega, hlabels, htold, hbefore, hsuccess, ?_, ?_, ?_, Result.timedOut_iff hbefore, rfl⟩
  · constructor
    · intro h
      obtain ⟨hsetup, htail⟩ := hparts.1 (hsuccess.1 h)
      exact ⟨hsetup, hwhole (hsuccess.1 h), htail⟩
    · rintro ⟨hsetup, -, htail⟩
      exact hsuccess.2 (hparts.2 ⟨hsetup, htail⟩)
  · intro hsteps
    have hpos := List.length_pos_iff.2 hsteps
    constructor
    · intro h
      exact ⟨hwhole (hsuccess.1 h), fun e he => hsuccess.1 h e (List.mem_of_mem_tail he)⟩
    · rintro ⟨hlength, htail⟩
      -- the entry of the setup is not the last
      refine hsuccess.2 fun e he => ?_
      rcases mem_dropLast_or_mem_tail (by omega) he with he | he
      · exact hbefore e he
      · exact htail e he
  · intro hfailed
    obtain ⟨last, hlast, hnot, herror⟩ := Result.failure hbefore hfailed
    obtain ⟨i, hi⟩ := List.mem_iff_getElem?.1 (List.mem_of_getLast? hlast)
    obtain ⟨stage, -, hstage⟩ := htold i last hi
    obtain ⟨text, htext⟩ : ∃ text, last.error = some text := by
      have hfailed := StepResult.success_eq_false_iff.2 hnot
      rw [hstage] at hfailed ⊢
      exact StepResult.exists_error hfailed
    rw [htext] at herror
    exact ⟨last, text, hlast, hnot, htext, herror⟩

/-! ## A suite of scenarios -/

/-- The world after scenarios, one after the other. -/
def afterEach (connection : Connection) (w : World) (specs : List Spec) : World :=
  specs.foldl (fun w spec => (w.run (runScenario connection spec)).2) w

theorem afterEach_withLog (connection : Connection) : ∀ (specs : List Spec) (w : World) (log : Array LogEvent),
    ∃ log', afterEach connection { w with log } specs = { afterEach connection w specs with log := log' }
  | [], w, log => ⟨log, rfl⟩
  | spec :: rest, w, log => by
    obtain ⟨log', hlog'⟩ := w.run_withLog log (runScenario connection spec)
    obtain ⟨log'', hlog''⟩ := afterEach_withLog connection rest (w.run (runScenario connection spec)).2 log'
    refine ⟨log'', ?_⟩
    show afterEach connection (({ w with log } : World).run (runScenario connection spec)).2 rest = _
    rw [hlog', hlog'']
    rfl

/-- **Each scenario of a suite is told of in its place**, as it went in the world that the ones before it left. -/
theorem run_runEach (connection : Connection) : ∀ (specs : List Spec) (w : World) (log : Array LogEvent),
    ∃ results log', ({ w with log } : World).run (runEach connection specs) =
        (results, { afterEach connection w specs with log := log' }) ∧
      results.length = specs.length ∧
      ∀ (i : Nat) spec, specs[i]? = some spec →
        results[i]? = some ((afterEach connection w (specs.take i)).run (runScenario connection spec)).1
  | [], w, log => ⟨[], log, rfl, rfl, fun i spec h => by simp at h⟩
  | spec :: rest, w, log => by
    obtain ⟨here, hhere⟩ := w.run_withLog log (runScenario connection spec)
    obtain ⟨log', hcons⟩ := run_runEach_cons connection { w with log } spec rest
    obtain ⟨results, left, hrest, hlength, htold⟩ :=
      run_runEach connection rest (w.run (runScenario connection spec)).2 log'
    rw [hhere] at hcons
    dsimp only at hcons
    rw [hrest] at hcons
    refine ⟨_, left, hcons, congrArg (· + 1) hlength, fun i s hs => ?_⟩
    cases i with
    | zero =>
      cases Option.some.inj hs
      rfl
    | succ i => exact htold i s hs

theorem Tally.total_eq (millis : Nat) (results : List Result) :
    (Tally.ofResults millis results).total = (Tally.ofResults millis results).passed +
      (Tally.ofResults millis results).failed + (Tally.ofResults millis results).timedOut := by
  show results.length = results.countP (·.success) + results.countP (fun r => !r.success && !r.timedOut) +
    results.countP fun r => !r.success && r.timedOut
  induction results with
  | nil => rfl
  | cons r rest ih =>
    simp only [List.length_cons, List.countP_cons]
    cases r.success <;> cases r.timedOut <;> simp <;> omega

theorem Tally.success_iff (millis : Nat) (results : List Result) :
    (Tally.ofResults millis results).success = true ↔ ∀ r ∈ results, r.success = true := by
  show (decide (results.countP (fun r => !r.success && !r.timedOut) = 0) &&
    decide (results.countP (fun r => !r.success && r.timedOut) = 0)) = true ↔ _
  have huncounted (r : Result) : r.success = true ↔
      ¬(!r.success && !r.timedOut) = true ∧ ¬(!r.success && r.timedOut) = true := by
    cases r.success <;> cases r.timedOut <;> decide
  rw [Bool.and_eq_true, decide_eq_true_iff, decide_eq_true_iff, List.countP_eq_zero, List.countP_eq_zero,
    ← forall₂_and]
  exact forall₂_congr fun r _ => (huncounted r).symm

theorem run_runAll_results (connection : Connection) (specs : List Spec) (w : World) :
    ∃ millis results left, w.run (runAll connection specs) = (.ofResults millis results, left) ∧
      left.server = (afterEach connection w specs).server ∧ results.length = specs.length ∧
      ∀ (i : Nat) spec, specs[i]? = some spec →
        results[i]? = some ((afterEach connection w (specs.take i)).run (runScenario connection spec)).1 := by
  obtain ⟨log, log', millis, htally, hleft⟩ := run_runAll connection w specs
  obtain ⟨results, log'', heach, hlength, htold⟩ := run_runEach connection specs w log
  rw [heach] at htally hleft
  exact ⟨millis, results, _, Prod.ext htally hleft, rfl, hlength, htold⟩

/-- **A suite tells of its scenarios in order, and its counts add up.** Each scenario goes on from the world that
the ones before it left. -/
theorem runAll_recounts (connection : Connection) (specs : List Spec) (w : World) :
    ∃ tally left, w.run (runAll connection specs) = (tally, left) ∧
      tally.total = specs.length ∧ tally.total = tally.passed + tally.failed + tally.timedOut ∧
      (tally.success = true ↔ ∀ r ∈ tally.results, r.success = true) ∧
      tally.results.length = specs.length ∧ left.server = (afterEach connection w specs).server ∧
      ∀ (i : Nat) spec, specs[i]? = some spec → ∃ r n, tally.results[i]? = some r ∧
        Recounts connection spec (afterEach connection w (specs.take i)) n r
          (afterEach connection w (specs.take (i + 1))).server := by
  obtain ⟨millis, results, left, hrun, hleft, hlength, htold⟩ := run_runAll_results connection specs w
  refine ⟨.ofResults millis results, left, hrun, hlength, Tally.total_eq millis results,
    Tally.success_iff millis results, hlength, hleft, fun i spec hspec => ?_⟩
  obtain ⟨n, hn⟩ := runScenario_recounts connection spec (afterEach connection w (specs.take i))
  have hafter : afterEach connection w (specs.take (i + 1)) =
      ((afterEach connection w (specs.take i)).run (runScenario connection spec)).2 := by
    rw [List.take_add_one, hspec, Option.toList_some, afterEach, List.foldl_append]
    rfl
  rw [hafter]
  exact ⟨_, n, htold i spec hspec, hn⟩

/-- One scenario waits too long and the other one stops at its setup. -/
theorem runAll_recounts_crowded : ∃ tally left, crowded.run (runAll brief [waiting, raced]) = (tally, left) ∧
    tally.total = 2 ∧ tally.failed = 1 ∧ tally.timedOut = 1 ∧ ∃ r, tally.results[1]? = some r ∧
      Recounts brief raced (afterEach brief crowded [waiting]) 0 r left.server := by
  obtain ⟨tally, left, hrun, htotal, -, -, -, hleft, htold⟩ := runAll_recounts brief [waiting, raced] crowded
  obtain ⟨r, n, hr, hrecounts⟩ := htold 1 raced rfl
  have htally : (crowded.run (runAll brief [waiting, raced])).1.failed = 1 ∧
      (crowded.run (runAll brief [waiting, raced])).1.timedOut = 1 ∧
      (crowded.run (runAll brief [waiting, raced])).1.results[1]?.map (·.steps.length) = some 1 := by decide +kernel
  rw [hrun] at htally
  obtain ⟨hfailed, htimed, hsteps⟩ := htally
  -- only the setup of `raced` is entered
  have hn : n = 0 := by
    have hlabels := congrArg List.length hrecounts.labels_eq
    have hle := hrecounts.le_length
    rw [hr] at hsteps
    have hone : r.steps.length = 1 := Option.some.inj hsteps
    simp at hlabels
    omega
  subst hn
  refine ⟨tally, left, hrun, htotal, hfailed, htimed, r, hr, ?_⟩
  rw [hleft]
  exact hrecounts

/-- A scenario without steps. -/
def stepless : Spec where
  name := "stepless"
  description := ""
  tags := []
  folder := ⟨["teamA"], by decide⟩
  deleteExistingRoot := false
  jobs := []
  steps := []

/-- A server on which the folder of `stepless` cannot be made. -/
def refusing : World := .ofServer { Server.empty with folderFailures := [(["teamA"], 503)] }

/-- **That all steps were taken and passed does not make a scenario succeed**: here there are none, but the setup
fails. -/
theorem not_success_iff_steps : stepless.validate = .ok () ∧ ¬ ∀ r ∈ (refusing.run (runAll brief [stepless])).1.results,
    (r.success = true ↔ r.steps.tail.map (·.step) = stepless.steps.map Step.label ∧
      ∀ e ∈ r.steps.tail, e.status = .passed) := by
  decide +kernel

end Scenario

end JobHierarchy
