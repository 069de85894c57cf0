import JobHierarchy.Documents
import JobHierarchy.Scenario.Spec
import JobHierarchy.Yaml.Decode
/-!
# Scenario documents

A scenario is written in YAML. Strings of the scenario and its jobs are the texts of scalars,
whatever they would mean. A step is different: which fields it has is known only when its action
is, so its parts are first taken for what they mean, and a number is then no string.
-/

namespace JobHierarchy.Scenario

open Yaml Yaml.Decode

/-! ## Jobs -/

structure JobDraft where
  name : Option String := none
  kind : TemplateKind := .pipeline
  params : TemplateParams := []

/-- Of several values of one parameter the last counts. -/
def JobSpec.ofNode (node : Node) : Decoded JobSpec := do
  let (draft, byName) ← fields ["name", "kind", "params"] ({} : JobDraft)
    (fun d i v => match i with
      | 0 => do return { d with name := some (← string v) }
      | 1 => do return { d with kind := ← variant TemplateKind.ofDocument v }
      | _ => do return { d with params := TemplateParams.ofList (← strings v) }) node
  return { name := ← required byName "name" draft.name, kind := draft.kind, params := draft.params }

/-! ## Steps -/

/-- How deep collections may nest in a document. -/
def maxDepth : Nat := 128

mutual

/-- Whether a part of a step can be taken for what it means, with `depth` levels still to open. -/
def isSound : (depth : Nat) → Node → Bool
  | _, .scalar tag style s =>
    match meaning? tag style s with
    | some .wholeBeyond | none => false
    | some _ => true
  | depth, .sequence tag items =>
    match depth with
    | 0 => false
    | depth + 1 => !hasOwnTag tag && areSound depth items
  | depth, .mapping tag entries =>
    match depth with
    | 0 => false
    | depth + 1 => !hasOwnTag tag && entriesSound depth entries
  | _, .endless => false
  | _, .broken => false

def areSound : (depth : Nat) → List Node → Bool
  | _, [] => true
  | depth, node :: rest => isSound depth node && areSound depth rest

def entriesSound : (depth : Nat) → List (Node × Node) → Bool
  | _, [] => true
  | depth, (key, value) :: rest =>
    isSound depth key && isSound depth value && entriesSound depth rest

/-- A tag that only the document itself gives a meaning. -/
def hasOwnTag (tag : Option String) : Bool :=
  tag.any fun t => (Text.after? ['!'] t.toList).any (· ≠ [])

end

/-- The meaning of a part that is a scalar. -/
def meaningOf? : Node → Option Meaning
  | .scalar tag style s => meaning? tag style s
  | _ => none

/-- A string, and not the text of something else. -/
def properString (node : Node) : Decoded String :=
  match meaningOf? node with
  | some (.string s) => .ok s
  | _ => wrongType

/-- A whole number below 2^64. -/
def natural (node : Node) : Decoded Nat :=
  match meaningOf? node with
  | some (.whole n) => if 0 ≤ n then .ok n.toNat else wrongType
  | _ => wrongType

/-- Results in the order of their positions. -/
def resultOrder : List BuildResult := BuildResult.named ++ [.unknown]

/-- A result by its word or, as the only name in a mapping, by word or position. -/
def resultOf : Node → Decoded BuildResult
  | .mapping _ [(key, value)] => do
    let result ← match meaningOf? key with
      | some (.string s) => pure (BuildResult.ofWord s)
      | some (.whole n) =>
        if 0 ≤ n then pure (resultOrder.getD n.toNat .unknown) else wrongType
      | _ => wrongType
    match value with
    | .mapping _ [] => return result
    | _ => if meaningOf? value = some .null then return result else wrongType
  | node => do return BuildResult.ofWord (← properString node)

inductive Action where
  | build
  | buildBranch
  | waitResult
  | abortAll
  | deleteJob
  deriving DecidableEq, Repr

def Action.ofDocument : String → Except Detail Action
  | "build" => .ok .build
  | "build_branch" => .ok .buildBranch
  | "wait_result" => .ok .waitResult
  | "abort_all" => .ok .abortAll
  | "delete_job" => .ok .deleteJob
  | s => .error (.unknownVariant s)

def Action.fieldNames : Action → List String
  | .buildBranch => ["pipeline", "branch"]
  | .waitResult => ["job", "result", "timeout_ms"]
  | .build | .abortAll | .deleteJob => ["job"]

/-- The fields that a step may have. -/
structure StepDraft where
  /-- The job, or the pipeline. -/
  subject : Option String := none
  branch : Option String := none
  desired : BuildResult := .success
  timeout : Nat := 60000

/-- Reads the field at a position. -/
def StepDraft.read (action : Action) (d : StepDraft) (i : Nat) (v : Node) : Decoded StepDraft :=
  match action, i with
  | _, 0 => do return { d with subject := some (← properString v) }
  | .buildBranch, _ => do return { d with branch := some (← properString v) }
  | .waitResult, 1 => do return { d with desired := ← resultOf v }
  | _, _ => do return { d with timeout := ← natural v }

/-- The step of a draft; a field that is missing is reported for a step with names. -/
def StepDraft.finish (action : Action) (byName : Bool) (d : StepDraft) : Decoded Step := do
  match action with
  | .build => return .build (← required byName "job" d.subject)
  | .buildBranch =>
    return .buildBranch (← required byName "pipeline" d.subject)
      (← required byName "branch" d.branch)
  | .waitResult => return .waitResult (← required byName "job" d.subject) d.desired d.timeout
  | .abortAll => return .abortAll (← required byName "job" d.subject)
  | .deleteJob => return .deleteJob (← required byName "job" d.subject)

/-- The position of the field that a key names; a number is a position. -/
def fieldOf (names : List String) (key : Node) : Decoded (Option Nat) :=
  match meaningOf? key with
  | some (.string s) => .ok (names.idxOf? s)
  | some (.whole n) =>
    if 0 ≤ n then .ok (if n.toNat < names.length then some n.toNat else none) else wrongType
  | _ => wrongType

def readFields (action : Action) :
    List (Node × Node) → (seen : List Nat) → StepDraft → Decoded StepDraft
  | [], _, d => .ok d
  | (key, value) :: rest, seen, d => do
    match ← fieldOf action.fieldNames key with
    | none => readFields action rest seen d
    | some i =>
      if seen.contains i then throw (some (.duplicateField (action.fieldNames.getD i "")))
      else readFields action rest (i :: seen) (← d.read action i value)

/-- The action of a step and its other entries. -/
def splitAction (depth : Nat) :
    List (Node × Node) → Option Action → List (Node × Node) →
    Decoded (Option Action × List (Node × Node))
  | [], action, others => .ok (action, others)
  | (key, value) :: rest, action, others => do
    if !isSound depth key then wrongType
    if meaningOf? key = some (.string "action") then
      if action.isSome then throw (some (.duplicateField "action"))
      else splitAction depth rest (some (← judged Action.ofDocument value)) others
    else if isSound depth value then splitAction depth rest action (others ++ [(key, value)])
    else wrongType

/-- A step is a mapping with an action among its names, or a sequence that begins with one. -/
def Step.ofNode : Node → Decoded Step
  | .mapping tag entries => do
    if hasOwnTag tag then wrongType
    let (action, others) ← splitAction (maxDepth - 3) entries none []
    match action with
    | none => throw (some (.missingField "action"))
    | some action => (← readFields action others [] {}).finish action true
  | .sequence tag items => do
    if hasOwnTag tag then wrongType
    match items with
    | [] => throw (some (.missingField "action"))
    | first :: rest =>
      let action ← judged Action.ofDocument first
      if !areSound (maxDepth - 3) rest then wrongType
      (← readItems action.fieldNames.length (StepDraft.read action) rest 0 {}).finish action false
  | _ => wrongType

/-! ## Scenarios -/

structure SpecDraft where
  name : Option String := none
  description : String := ""
  tags : List String := []
  folder : Option FolderPath := none
  deleteExistingRoot : Bool := true
  jobs : List JobSpec := []
  steps : List Step := []

def Spec.fieldNames : List String :=
  ["name", "description", "tags", "folder", "delete_existing_root", "jobs", "steps"]

def SpecDraft.read (d : SpecDraft) (i : Nat) (v : Node) : Decoded SpecDraft :=
  match i with
  | 0 => do return { d with name := some (← string v) }
  | 1 => do return { d with description := ← string v }
  | 2 => do return { d with tags := ← list string v }
  | 3 => do return { d with folder := some (← judged FolderPath.ofDocument v) }
  | 4 => do return { d with deleteExistingRoot := ← bool v }
  | 5 => do return { d with jobs := ← list JobSpec.ofNode v }
  | _ => do return { d with steps := ← list Step.ofNode v }

def Spec.ofNode (node : Node) : Decoded Spec := do
  let (d, byName) ← fields Spec.fieldNames ({} : SpecDraft) SpecDraft.read node
  let name ← required byName "name" d.name
  let folder ← required byName "folder" d.folder
  return {
    name, description := d.description, tags := d.tags, folder,
    deleteExistingRoot := d.deleteExistingRoot, jobs := d.jobs, steps := d.steps }

/-- The scenario of a text, checked. -/
def Spec.ofYaml (text : String) : Except Error Spec := do
  let document := Document.ofText text
  let spec ← (Spec.ofNode document.root).mapError .yaml
  if !document.sound then throw (.yaml none)
  spec.validate
  return spec

end JobHierarchy.Scenario
