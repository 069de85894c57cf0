/-!
# Errors

An `Error` is the cause of a failed operation; `Error.message` is its wording. Reading a document
(JSON, TOML, YAML) can fail because the text is not well formed or because it does not have the
expected shape: `Detail` names the second kind of fault where there is a name to give.
-/

namespace JobHierarchy

/-- A fault in the shape of a document. -/
inductive Detail where
  | missingField (name : String)
  | unknownVariant (name : String)
  | duplicateField (name : String)
  /-- The text of a value was refused, for the given reason. -/
  | refused (reason : String)
  deriving DecidableEq, Repr

def Detail.message : Detail → String
  | .missingField name => "missing field `" ++ name ++ "`"
  | .unknownVariant name => "unknown variant `" ++ name ++ "`"
  | .duplicateField name => "duplicate field `" ++ name ++ "`"
  | .refused reason => reason

/-- Why a document could not be read. No detail: it is not well formed, or a value has the wrong
type. -/
abbrev DocumentFault := Option Detail

def DocumentFault.message : DocumentFault → String
  | some d => d.message
  | none => "the document is not well formed"

/-- Why a file operation failed. -/
inductive FileFault where
  | notFound
  | isDirectory
  | notDirectory
  | alreadyExists
  | notText
  | other (text : String)
  deriving DecidableEq, Repr

def FileFault.message : FileFault → String
  | .notFound => "No such file or directory (os error 2)"
  | .isDirectory => "Is a directory (os error 21)"
  | .notDirectory => "Not a directory (os error 20)"
  | .alreadyExists => "File exists (os error 17)"
  | .notText => "stream did not contain valid UTF-8"
  | .other text => text

/-- The cause of a failed operation. -/
inductive Error where
  /-- The item does not exist on the server. -/
  | notFound (kind name : String)
  /-- The request is one that is refused on purpose. -/
  | unsupported (reason : String)
  /-- Talking to the server failed; the status is the one it answered with. -/
  | transport (status : Option Nat) (reason : String)
  /-- Polling gave up after the given number of microseconds. -/
  | timeout (condition : String) (waitedMicros : Nat)
  | invalidPath (reason : String)
  | config (reason : String)
  | template (reason : String)
  | io (fault : FileFault)
  | json (fault : DocumentFault)
  | toml (fault : DocumentFault)
  deriving DecidableEq, Repr

namespace Error

def message : Error → String
  | .notFound kind name => "Resource not found: " ++ kind ++ " " ++ name
  | .unsupported reason => "Unsupported operation: " ++ reason
  | .transport (some status) reason =>
    "Transport error (HTTP " ++ toString status ++ "): " ++ reason
  | .transport none reason => "Transport error: " ++ reason
  | .timeout condition waited =>
    "Timed out after " ++ toString (waited / 1000) ++ "ms waiting for " ++ condition
  | .invalidPath reason => "Invalid folder path: " ++ reason
  | .config reason => "Invalid configuration: " ++ reason
  | .template reason => "Template error: " ++ reason
  | .io fault => "IO error: " ++ fault.message
  | .json fault => "JSON error: " ++ fault.message
  | .toml fault => "TOML error: " ++ fault.message

/-- The item is gone already, or not there yet. -/
def isNotFound : Error → Bool
  | .notFound .. => true
  | _ => false

def isTimeout : Error → Bool
  | .timeout .. => true
  | _ => false

end Error

end JobHierarchy
