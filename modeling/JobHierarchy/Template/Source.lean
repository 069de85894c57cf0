import JobHierarchy.FileTree
import JobHierarchy.Log
import JobHierarchy.Template.BuiltIn
import JobHierarchy.Template.Substitute
/-!
# Where definitions come from

A definition is the template of its kind with the parameters filled in. The template is the
built-in one, or a file of a directory of templates where there is such a file.
-/

namespace JobHierarchy

inductive TemplateSource where
  | builtIn
  /-- A directory, by its path and by how the files in it read. -/
  | directory (path : String) (read : String → Except FileFault String)

namespace TemplateSource

/-- The directory at `path`, if there is one. -/
def openDirectory (files : FileView) (path : String) : Except Error TemplateSource :=
  if files.isDirectory path then
    .ok (.directory path fun name => files.read (FileView.entry path name))
  else .error (.template ("template directory " ++ path ++ " does not exist"))

/-- The template of a kind, with what there is to report about finding it. -/
def template (source : TemplateSource) (kind : TemplateKind) :
    Except Error (String × List LogEvent) :=
  match source with
  | .builtIn => .ok (kind.builtIn, [])
  | .directory path read =>
    match read kind.fileName with
    | .ok text => .ok (text, [])
    | .error .notFound =>
      .ok (kind.builtIn,
        [⟨.debug, "No " ++ kind.name ++ " override in " ++ path ++ ", using built-in"⟩])
    | .error fault => .error (.io fault)

/-- The definition of a kind for the given parameters. -/
def render (source : TemplateSource) (kind : TemplateKind) (params : TemplateParams) :
    Except Error (String × List LogEvent) :=
  (source.template kind).map fun (text, events) => (substitute text params, events)

end TemplateSource

end JobHierarchy
