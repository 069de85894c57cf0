import JobHierarchy.Error
/-!
# Build results

How a finished build ended. A running build has no result, so a result that may be absent is an
`Option BuildResult`. Servers may answer words that are not known here: they all read as `unknown`,
a word that a user may not ask for.
-/

namespace JobHierarchy

inductive BuildResult where
  | success
  | unstable
  | failure
  | notBuilt
  | aborted
  | unknown
  deriving DecidableEq, Repr, Inhabited

namespace BuildResult

/-- The word a server uses. -/
def word : BuildResult → String
  | .success => "SUCCESS"
  | .unstable => "UNSTABLE"
  | .failure => "FAILURE"
  | .notBuilt => "NOT_BUILT"
  | .aborted => "ABORTED"
  | .unknown => "UNKNOWN"

/-- The results that a word can be asked for by name. -/
def named : List BuildResult := [.success, .unstable, .failure, .notBuilt, .aborted]

/-- The result a server means by a word. -/
def ofWord (w : String) : BuildResult :=
  (named.find? fun r => r.word = w).getD .unknown

/-- A result as a user writes it: case does not matter, and dashes stand for underscores. -/
def parse (text : String) : Except Error BuildResult :=
  let w := String.ofList (text.toList.map fun c => if c = '-' then '_' else c.toUpper)
  match named.find? fun r => r.word = w with
  | some r => .ok r
  | none => .error (.config ("unknown build result '" ++ w ++ "'"))

end BuildResult

end JobHierarchy
