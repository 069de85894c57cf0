import JobHierarchy.Error
import JobHierarchy.Text.Split
/-!
# File trees

A tree of text files, kept as the list of its entries by path. Every directory on the way to an
entry is an entry too, and the empty path is the root directory. `FileView` is what an operation
may ask of the file system, by path text; a tree gives such a view of the paths below a root.
-/

namespace JobHierarchy

inductive FileNode where
  | file (text : String)
  | directory
  deriving DecidableEq, Repr

structure FileTree where
  entries : List (List String × FileNode)
  deriving DecidableEq, Repr

namespace FileTree

def empty : FileTree := ⟨[([], .directory)]⟩

instance : Inhabited FileTree := ⟨empty⟩

/-- The names in a path text. -/
def components (path : String) : List String :=
  (Text.parts '/' path).filter fun part => part != "" && part != "."

def find? (tree : FileTree) (path : List String) : Option FileNode :=
  tree.entries.lookup path

def isDirectory (tree : FileTree) (path : List String) : Bool :=
  tree.find? path == some .directory

/-- The paths of the directories above `path`, nearest to the root first. -/
def ancestors (path : List String) : List (List String) :=
  (List.range path.length).map path.take

/-- Some directory above `path` is in fact a file. -/
def blocked (tree : FileTree) (path : List String) : Bool :=
  (ancestors path).any fun a =>
    match tree.find? a with
    | some (.file _) => true
    | _ => false

def put (tree : FileTree) (path : List String) (node : FileNode) : FileTree :=
  ⟨(path, node) :: tree.entries.filter fun e => e.1 != path⟩

/-- Puts an entry and the directories above it that are missing. -/
def insert (tree : FileTree) (path : List String) (node : FileNode) : FileTree :=
  let above := (ancestors path).filter fun a => (tree.find? a).isNone
  (above.foldl (fun t a => t.put a .directory) tree).put path node

/-- The tree of the given files; a path that ends in a slash is a directory. -/
def ofList (files : List (String × String)) : FileTree :=
  files.foldl (fun t (path, text) =>
    t.insert (components path) (if path.toList.getLast? = some '/' then .directory else .file text))
    empty

def read (tree : FileTree) (path : List String) : Except FileFault String :=
  match tree.find? path with
  | some (.file text) => .ok text
  | some .directory => .error .isDirectory
  | none => .error (if tree.blocked path then .notDirectory else .notFound)

/-- Makes `path` and what is missing above it directories. -/
def makeDirectory (tree : FileTree) (path : List String) : Except FileFault FileTree :=
  match tree.find? path with
  | some .directory => .ok tree
  | some (.file _) => .error .alreadyExists
  | none => if tree.blocked path then .error .notDirectory else .ok (tree.insert path .directory)

/-- Writes a file into a directory that exists. -/
def write (tree : FileTree) (path : List String) (text : String) : Except FileFault FileTree :=
  match tree.find? path with
  | some .directory => .error .isDirectory
  | some (.file _) => .ok (tree.put path (.file text))
  | none =>
    if tree.blocked path then .error .notDirectory
    else if tree.isDirectory path.dropLast then .ok (tree.put path (.file text))
    else .error .notFound

/-- The paths at and below `path`. A directory comes before what is in it because its path is the
shorter one in the order of lists of names. -/
def walk (tree : FileTree) (path : List String) : List (List String) :=
  ((tree.entries.map (·.1)).filter path.isPrefixOf).mergeSort fun a b => !(decide (b < a))

end FileTree

/-- What an operation may ask of the file system. -/
structure FileView where
  read : String → Except FileFault String
  isDirectory : String → Bool
  /-- The paths at and below a path, each directory before what is in it, names in ascending
  order. -/
  walk : String → List String

/-- The path of an entry of a directory. -/
def FileView.entry (directory name : String) : String :=
  if directory.toList.getLast? = some '/' then directory ++ name else directory ++ "/" ++ name

/-- The tree as seen at the path text `root`; nothing exists elsewhere. -/
def FileTree.view (tree : FileTree) (root : String) : FileView where
  read path :=
    match Text.after? root.toList path.toList with
    | some below => tree.read (components (String.ofList below))
    | none => .error .notFound
  isDirectory path :=
    match Text.after? root.toList path.toList with
    | some below => tree.isDirectory (components (String.ofList below))
    | none => false
  walk path :=
    match Text.after? root.toList path.toList with
    | some below =>
      (tree.walk (components (String.ofList below))).map fun names =>
        if names = [] then path else root ++ "/" ++ "/".intercalate names
    | none => []

end JobHierarchy
