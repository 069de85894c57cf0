import JobHierarchy.Poller
import JobHierarchy.Resolver
/-!
# Builds

Triggering builds, stopping all builds below an item, and waiting for the result of the latest.
None of these creates a folder.
-/

namespace JobHierarchy.JobServer

/-- The job `name` in a folder. -/
def findJob (server : JobServer) (folder : FolderPath) (name : String) : Operation JobRef := do
  let scope ← server.resolve folder false
  match ← Operation.ask (.getJob scope name) with
  | some job => return job
  | none => throw (.notFound "job" (folder.displayItem name))

def build (server : JobServer) (folder : FolderPath) (name : String) : Operation Unit := do
  let job ← server.findJob folder name
  Operation.ask (.triggerBuild job)
  Operation.report .info ("Triggered build of " ++ folder.displayItem name)

/-- Builds one branch of a multi-branch pipeline. -/
def buildBranch (server : JobServer) (folder : FolderPath) (pipeline branch : String) :
    Operation Unit := do
  server.build (← Operation.ofExcept (folder.append pipeline)) branch

/-- Stops those of the builds that still run, and counts them. -/
def stopRunning (shown : String) : List BuildHandle → Operation Nat
  | [] => return 0
  | build :: rest => do
    match ← Operation.ask (.buildResult build) with
    | some _ => stopRunning shown rest
    | none =>
      Operation.ask (.stopBuild build)
      Operation.report .info ("Stopped build " ++ shown ++ " - #" ++ toString build.number)
      return (← stopRunning shown rest) + 1

/-- Stops the builds of the pending items and of all that is in them, at most `fuel` items, each
before the items in it and those in listing order. -/
def abortPending (server : JobServer) : (fuel : Nat) → List (FolderPath × String) → Operation Nat
  | _, [] => return 0
  | 0, _ :: _ => throw (.unsupported "the hierarchy has no end")
  | fuel + 1, (folder, name) :: pending => do
    let job ← server.findJob folder name
    let builds ← Operation.ask (.listBuilds job)
    let here ← stopRunning (folder.displayItem name) builds
    let inside ← match ← Operation.ask (.folderView job) with
      | none => pure []
      | some view => do
        let scope ← Operation.ofExcept (folder.append name)
        pure (view.jobs.map fun child => (scope, child))
    return here + (← server.abortPending fuel (inside ++ pending))

/-- Stops every running build of an item and of all that is in it, and counts them. The hierarchy
is taken to be a finite tree. -/
def abortAllBuilds (server : JobServer) (folder : FolderPath) (name : String) : Operation Nat := do
  server.abortPending (← Operation.census) [(folder, name)]

/-- The build with the highest number; of several the last. -/
def latestBuild? : List BuildHandle → Option BuildHandle
  | [] => none
  | build :: rest =>
    match latestBuild? rest with
    | some later => if build.number ≤ later.number then some later else some build
    | none => some build

/-- The result of the latest build, nothing while it runs. -/
def lastBuildResult (server : JobServer) (folder : FolderPath) (name : String) :
    Operation (Option BuildResult) := do
  let job ← server.findJob folder name
  match latestBuild? (← Operation.ask (.listBuilds job)) with
  | some build => Operation.ask (.buildResult build)
  | none => throw (.notFound "build" (folder.displayItem name))

/-- The latest build of a job has a certain result. -/
structure BuildCondition where
  folder : FolderPath
  job : String
  desired : BuildResult
  deriving DecidableEq, Repr

/-- Whether the condition holds now. Whatever goes wrong, it then does not hold yet. -/
def isMet (server : JobServer) (condition : BuildCondition) : Program Bool := do
  match ← (server.lastBuildResult condition.folder condition.job).run with
  | .ok result => return result = some condition.desired
  | .error e =>
    Program.report
      ⟨.debug, condition.folder.displayItem condition.job ++ " not ready: " ++ e.message⟩
      (.done false)

/-- What is waited for, in words. -/
def BuildCondition.goal (condition : BuildCondition) : String :=
  condition.folder.displayItem condition.job ++ " to finish with " ++ condition.desired.word

/-- Polls until the condition holds. -/
def waitForBuildResult (server : JobServer) (poller : Poller) (condition : BuildCondition)
    (timeout : Nat) : Operation Unit :=
  poller.pollTrue condition.goal timeout fun _ => server.isMet condition

/-- The same in either build. -/
def waitForBuildResultUnder (overflow : Overflow) (server : JobServer) (poller : Poller)
    (condition : BuildCondition) (timeout : Nat) : Program (Option (Except Error Unit)) :=
  poller.pollTrueUnder overflow condition.goal timeout fun _ => server.isMet condition

end JobHierarchy.JobServer
