import JobHierarchy.Error
import JobHierarchy.Template.Kind
/-!
# Failures of commands

A command fails for the cause that an operation failed for, sometimes with a note on what was being
done, or because a parameter was given that the kind of job does not have.
-/

namespace JobHierarchy.CommandLine

inductive Failure where
  | cause (error : Error)
  | during (note : String) (error : Error)
  /-- A main parameter was given for a kind that has none. -/
  | noPrimaryParam (kind : TemplateKind)
  deriving DecidableEq, Repr

/-- The wording of an error and of what lies below it. -/
def chain (error : Error) : String :=
  match error with
  | .io fault => error.message ++ ": " ++ fault.message
  | .json fault | .toml fault => error.message ++ ": " ++ fault.message
  | _ => error.message

namespace Failure

def message : Failure → String
  | .cause error => chain error
  | .during note error => note ++ ": " ++ chain error
  | .noPrimaryParam kind => kind.name ++ " templates take no main parameter"

/-- The error that an operation failed with. -/
def error? : Failure → Option Error
  | .cause error | .during _ error => some error
  | .noPrimaryParam _ => none

end Failure

end JobHierarchy.CommandLine
