import JobHierarchy.Connection
import JobHierarchy.Scenario.Spec
/-!
# Running scenarios

Scenarios run one after the other on one server. A run of a scenario first sets up its folder and
jobs and then takes its steps up to the first that does not pass. Nothing that goes wrong in a
scenario ends the run of the suite.
-/

namespace JobHierarchy.Scenario

inductive StepStatus where
  | passed
  | failed
  | timedOut
  deriving DecidableEq, Repr

def StepStatus.word : StepStatus → String
  | .passed => "passed"
  | .failed => "failed"
  | .timedOut => "timed_out"

/-- What became of a step; setting the scenario up counts as one. Times are in milliseconds. -/
structure StepResult where
  step : String
  status : StepStatus
  duration : Nat
  detail : Option String
  error : Option String
  deriving DecidableEq, Repr

namespace StepResult

def success (r : StepResult) : Bool := r.status = .passed

def ofOutcome (step : String) (duration : Nat) :
    Except Error (Option String) → StepResult
  | .ok detail => ⟨step, .passed, duration, detail, none⟩
  | .error e =>
    ⟨step, if e.isTimeout then .timedOut else .failed, duration, none, some e.message⟩

end StepResult

structure Result where
  name : String
  success : Bool
  duration : Nat
  steps : List StepResult
  error : Option String
  deriving DecidableEq, Repr

namespace Result

def timedOut (r : Result) : Bool := r.steps.any fun s => s.status = .timedOut

/-- A scenario fails with its first step that does not pass. -/
def ofSteps (name : String) (duration : Nat) (steps : List StepResult) : Result :=
  let error := (steps.find? fun s => !s.success).map fun s =>
    s.step ++ ": " ++ s.error.getD "failed"
  ⟨name, error.isNone, duration, steps, error⟩

end Result

/-- What became of a number of scenarios: the counts and the results in order. -/
structure Tally where
  total : Nat
  passed : Nat
  failed : Nat
  timedOut : Nat
  duration : Nat
  results : List Result
  deriving DecidableEq, Repr

namespace Tally

def success (t : Tally) : Bool := t.failed = 0 && t.timedOut = 0

/-- A scenario that timed out does not count as failed. -/
def ofResults (duration : Nat) (results : List Result) : Tally where
  total := results.length
  passed := results.countP (·.success)
  failed := results.countP fun r => !r.success && !r.timedOut
  timedOut := results.countP fun r => !r.success && r.timedOut
  duration
  results

end Tally

/-! ## Programs -/

/-- The time now, in milliseconds. -/
def now : Program Nat := .clock .done

/-- An operation with its duration, as the result of a step. -/
def timed (label : String) (operation : Operation (Option String)) : Program StepResult := do
  let started ← now
  let outcome ← operation.run
  let ended ← now
  return .ofOutcome label (ended - started) (outcome.mapError .api)

/-- Makes the folder and then the jobs in it. -/
def applyTarget (server : JobServer) (spec : Spec) : Operation (Option String) := do
  let folder ← server.createFolderChain spec.folder spec.deleteExistingRoot
  spec.jobs.forM fun job => do
    let _ ← server.createJob job.kind (some folder) job.name job.params
  return some (toString spec.jobs.length ++ " job(s) in " ++ spec.folder.display)

/-- Takes one step in a folder, and says what it did where there is something to say. -/
def execute (connection : Connection) (folder : FolderPath) : Step → Operation (Option String)
  | .build job => do
    connection.server.build folder job
    return none
  | .buildBranch pipeline branch => do
    connection.server.buildBranch folder pipeline branch
    return none
  | .waitResult job desired timeout => do
    connection.server.waitForBuildResult connection.poller ⟨folder, job, desired⟩ timeout
    return none
  | .abortAll job => do
    let stopped ← connection.server.abortAllBuilds folder job
    return some ("stopped " ++ toString stopped ++ " build(s)")
  | .deleteJob job => do
    let scope ← connection.server.resolve folder false
    JobServer.deleteJob scope job
    return none

/-- The results of the steps up to the first that does not pass. -/
def runSteps (connection : Connection) (folder : FolderPath) :
    List Step → Program (List StepResult)
  | [] => return []
  | step :: rest => do
    let result ← timed step.label (execute connection folder step)
    if result.success then return result :: (← runSteps connection folder rest)
    else return [result]

/-- Runs one scenario. -/
def runScenario (connection : Connection) (spec : Spec) : Program Result := do
  let started ← now
  Program.report ⟨.debug, "Running scenario: " ++ spec.name⟩ (.done ())
  let setup ← timed "setup" (applyTarget connection.server spec)
  let steps ← if setup.success then runSteps connection spec.folder spec.steps else pure []
  let ended ← now
  return .ofSteps spec.name (ended - started) (setup :: steps)

def Result.event (r : Result) : LogEvent :=
  if r.success then ⟨.info, "✓ " ++ r.name ++ " (" ++ toString r.duration ++ " ms)"⟩
  else ⟨.error, "✗ " ++ r.name ++ " - " ++ r.error.getD "unknown error"⟩

def Tally.event (t : Tally) : LogEvent :=
  ⟨.info, "Scenario Results: " ++ toString t.passed ++ " passed, " ++ toString t.failed
    ++ " failed, " ++ toString t.timedOut ++ " timed out (" ++ toString t.duration ++ " ms)"⟩

def runEach (connection : Connection) : List Spec → Program (List Result)
  | [] => return []
  | spec :: rest => do
    let result ← runScenario connection spec
    Program.report result.event (.done ())
    return result :: (← runEach connection rest)

/-- Runs scenarios in order. -/
def runAll (connection : Connection) (specs : List Spec) : Program Tally := do
  let started ← now
  Program.report
    ⟨.info, "Running " ++ toString specs.length ++ " scenario(s)..."⟩ (.done ())
  let results ← runEach connection specs
  let ended ← now
  let tally := Tally.ofResults (ended - started) results
  Program.report tally.event (.done ())
  return tally

end JobHierarchy.Scenario
