import JobHierarchy.FileTree
import JobHierarchy.Json.Decode
import JobHierarchy.Json.Printer
import JobHierarchy.Scenario.Run
import JobHierarchy.Time.Moment
/-!
# Reports

A report is the tally of a run and the moment at which it began. It is kept as a JSON file, in which
a step has a detail or an error only where there is one.
-/

namespace JobHierarchy.Scenario

open Json.Decode

structure Report where
  startedAt : Moment
  tally : Tally
  deriving DecidableEq, Repr

/-! ## Writing -/

/-- The member of an optional text. -/
def textMember (name : String) (text : Option String) : List (String × Json) :=
  match text with
  | some s => [(name, .string s)]
  | none => []

def StepResult.toJson (r : StepResult) : Json :=
  .object ([
    ("step", .string r.step),
    ("status", .string r.status.word),
    ("duration_ms", Json.nat r.duration)]
    ++ textMember "detail" r.detail ++ textMember "error" r.error)

def Result.toJson (r : Result) : Json :=
  .object [
    ("name", .string r.name),
    ("success", .bool r.success),
    ("duration_ms", Json.nat r.duration),
    ("steps", .array (r.steps.map StepResult.toJson)),
    ("error", (r.error.map Json.string).getD .null)]

def Report.toJson (r : Report) : Json :=
  .object [
    ("started_at", .string r.startedAt.display),
    ("total", Json.nat r.tally.total),
    ("passed", Json.nat r.tally.passed),
    ("failed", Json.nat r.tally.failed),
    ("timed_out", Json.nat r.tally.timedOut),
    ("duration_ms", Json.nat r.tally.duration),
    ("results", .array (r.tally.results.map Result.toJson))]

def reportFileName : String := "scenario-results.json"

/-- Writes the report into a directory, which is made if it is missing. -/
def Report.write (r : Report) (files : FileTree) (directory : List String) :
    Except Error FileTree := do
  let files ← (files.makeDirectory directory).mapError .io
  (files.write (directory ++ [reportFileName]) r.toJson.pretty).mapError .io

/-! ## Reading -/

def StepStatus.ofDocument : String → Except Detail StepStatus
  | "passed" => .ok .passed
  | "failed" => .ok .failed
  | "timed_out" => .ok .timedOut
  | s => .error (.unknownVariant s)

structure StepResultDraft where
  step : Option String := none
  status : Option StepStatus := none
  duration : Option Nat := none
  detail : Option String := none
  error : Option String := none

def StepResult.ofJson (v : Json) : Json.Decode.Decoded StepResult := do
  let (d, form) ← fields ["step", "status", "duration_ms", "detail", "error"] true
    ({} : StepResultDraft) (fun d i v => match i with
      | 0 => do return { d with step := some (← string v) }
      | 1 => do return { d with status := some (← variant StepStatus.ofDocument v) }
      | 2 => do return { d with duration := some (← natural v) }
      | 3 => do return { d with detail := ← optional string v }
      | _ => do return { d with error := ← optional string v }) v
  return {
    step := ← required form "step" d.step
    status := ← required form "status" d.status
    duration := ← required form "duration_ms" d.duration
    detail := d.detail
    error := d.error }

structure ResultDraft where
  name : Option String := none
  success : Option Bool := none
  duration : Option Nat := none
  steps : Option (List StepResult) := none
  error : Option (Option String) := none

/-- An error that is left out is none, but a list of fields may not end before it. -/
def Result.ofJson (v : Json) : Json.Decode.Decoded Result := do
  let (d, form) ← fields ["name", "success", "duration_ms", "steps", "error"] true
    ({} : ResultDraft) (fun d i v => match i with
      | 0 => do return { d with name := some (← string v) }
      | 1 => do return { d with success := some (← bool v) }
      | 2 => do return { d with duration := some (← natural v) }
      | 3 => do return { d with steps := some (← list StepResult.ofJson v) }
      | _ => do return { d with error := some (← optional string v) }) v
  return {
    name := ← required form "name" d.name
    success := ← required form "success" d.success
    duration := ← required form "duration_ms" d.duration
    steps := ← required form "steps" d.steps
    error := ← if form = .byName then pure (d.error.getD none) else required form "error" d.error }

structure ReportDraft where
  startedAt : Option Moment := none
  total : Option Nat := none
  passed : Option Nat := none
  failed : Option Nat := none
  timedOut : Option Nat := none
  duration : Option Nat := none
  results : Option (List Result) := none

def moment (v : Json) : Json.Decode.Decoded Moment := do
  match Moment.parse? (← string v) with
  | some m => return m
  | none => wrongType

def Report.ofJson (v : Json) : Json.Decode.Decoded Report := do
  let (d, form) ← fields
    ["started_at", "total", "passed", "failed", "timed_out", "duration_ms", "results"] true
    ({} : ReportDraft) (fun d i v => match i with
      | 0 => do return { d with startedAt := some (← moment v) }
      | 1 => do return { d with total := some (← natural v) }
      | 2 => do return { d with passed := some (← natural v) }
      | 3 => do return { d with failed := some (← natural v) }
      | 4 => do return { d with timedOut := some (← natural v) }
      | 5 => do return { d with duration := some (← natural v) }
      | _ => do return { d with results := some (← list Result.ofJson v) }) v
  return {
    startedAt := ← required form "started_at" d.startedAt
    tally := {
      total := ← required form "total" d.total
      passed := ← required form "passed" d.passed
      failed := ← required form "failed" d.failed
      timedOut := ← required form "timed_out" d.timedOut
      duration := ← required form "duration_ms" d.duration
      results := ← required form "results" d.results } }

end JobHierarchy.Scenario
