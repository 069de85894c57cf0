import JobHierarchy.Error
/-!
# Kinds of definitions

A server holds pipelines, multi-branch pipelines, freestyle jobs and folders; each is created from
a definition of its kind.
-/

namespace JobHierarchy

inductive TemplateKind where
  | pipeline
  | multibranch
  | freestyle
  | folder
  deriving DecidableEq, Repr, Inhabited

namespace TemplateKind

def all : List TemplateKind := [.pipeline, .multibranch, .freestyle, .folder]

def name : TemplateKind → String
  | .pipeline => "pipeline"
  | .multibranch => "multibranch"
  | .freestyle => "freestyle"
  | .folder => "folder"

/-- The file that overrides the built-in definition of the kind. -/
def fileName (kind : TemplateKind) : String := kind.name ++ ".xml"

/-- The parameter that a definition of the kind is mostly about. -/
def primaryParam? : TemplateKind → Option String
  | .pipeline => some "script"
  | .multibranch => some "repo"
  | .freestyle => some "command"
  | .folder => none

/-- A multi-branch pipeline finds its branches only when it is built. -/
def triggersInitialBuild : TemplateKind → Bool
  | .multibranch => true
  | _ => false

/-- The names that documents use for a kind. -/
def ofDocumentName? : String → Option TemplateKind
  | "pipeline" => some .pipeline
  | "multibranch" | "multi_branch" => some .multibranch
  | "freestyle" => some .freestyle
  | "folder" => some .folder
  | _ => none

/-- A kind as a user writes it: in any case, with or without a mark between two words. -/
def parse (text : String) : Except Error TemplateKind :=
  let lower := String.ofList (text.toList.map Char.toLower)
  match lower with
  | "pipeline" => .ok .pipeline
  | "multibranch" | "multi_branch" | "multi-branch" => .ok .multibranch
  | "freestyle" | "free_style" | "free-style" => .ok .freestyle
  | "folder" => .ok .folder
  | other => .error (.template ("unknown template kind '" ++ other ++ "'"))

end TemplateKind

end JobHierarchy
