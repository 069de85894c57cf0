import JobHierarchy.Error
/-!
# Errors of scenario runs

Running scenarios can fail as an operation on the server does, and besides for reasons of its own:
the server does not come up, or a scenario file cannot be used.
-/

namespace JobHierarchy.Scenario

inductive Error where
  | serverNotReady (attempts : Nat)
  /-- A scenario that cannot be run, with the reason. -/
  | unusable (reason : String)
  /-- A scenario file that could be read but not used. -/
  | inFile (path : String) (cause : Error)
  | step (label reason : String)
  | api (cause : JobHierarchy.Error)
  | io (fault : FileFault)
  | json (fault : DocumentFault)
  | yaml (fault : DocumentFault)
  deriving DecidableEq, Repr

namespace Error

def message : Error → String
  | .serverNotReady attempts => "Job server not ready after " ++ toString attempts ++ " attempts"
  | .unusable reason => "Scenario parse error: " ++ reason
  | .inFile path cause => "Scenario parse error: " ++ path ++ ": " ++ cause.message
  | .step label reason => "Step failed: " ++ label ++ " - " ++ reason
  | .api cause => "Job API error: " ++ cause.message
  | .io fault => "IO error: " ++ fault.message
  | .json fault => "JSON error: " ++ fault.message
  | .yaml fault => "YAML error: " ++ fault.message

/-- Polling on the server gave up. -/
def isTimeout : Error → Bool
  | .api cause => cause.isTimeout
  | _ => false

end Error

end JobHierarchy.Scenario
