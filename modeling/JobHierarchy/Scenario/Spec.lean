import JobHierarchy.BuildResult
import JobHierarchy.FolderPath
import JobHierarchy.Scenario.Error
import JobHierarchy.Template.Substitute
/-!
# Scenarios

A scenario names a folder and the jobs to have in it, and then lists steps to take there. What a
scenario asks for is checked once, when it is read: `validate` refuses the top level as the folder
and folders as jobs.
-/

namespace JobHierarchy.Scenario

/-- A job to create, with the parameters of its template. -/
structure JobSpec where
  name : String
  kind : TemplateKind
  params : TemplateParams
  deriving DecidableEq, Repr

/-- A step on the jobs in the scenario's folder. -/
inductive Step where
  | build (job : String)
  | buildBranch (pipeline branch : String)
  /-- Wait, in milliseconds, until the latest build ends in a certain way. -/
  | waitResult (job : String) (desired : BuildResult) (timeout : Nat)
  | abortAll (job : String)
  | deleteJob (job : String)
  deriving DecidableEq, Repr

/-- How a step shows in results. -/
def Step.label : Step → String
  | .build job => "build " ++ job
  | .buildBranch pipeline branch => "build_branch " ++ pipeline ++ "/" ++ branch
  | .waitResult job desired _ => "wait_result " ++ job ++ " " ++ desired.word
  | .abortAll job => "abort_all " ++ job
  | .deleteJob job => "delete_job " ++ job

structure Spec where
  name : String
  description : String
  tags : List String
  folder : FolderPath
  /-- Start without the top-level folder that `folder` lies in. -/
  deleteExistingRoot : Bool
  jobs : List JobSpec
  steps : List Step
  deriving DecidableEq, Repr

namespace Spec

def validate (spec : Spec) : Except Error Unit :=
  if spec.folder.isTopLevel then
    .error (.unusable ("scenario '" ++ spec.name ++ "' needs a non-empty folder"))
  else match spec.jobs.find? fun job => job.kind = .folder with
    | some job => .error (.unusable ("job '" ++ job.name ++ "' cannot use the folder template"))
    | none => .ok ()

def hasTag (tag : String) (spec : Spec) : Bool := spec.tags.contains tag

end Spec

end JobHierarchy.Scenario
