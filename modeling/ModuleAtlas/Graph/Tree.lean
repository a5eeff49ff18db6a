import ModuleAtlas.Graph.Basic
/-!
The tree of a graph, and its paths with slashes. Every registered file stands in the directory of its
path, and every directory on the way to a file stands in its own. A directory has its files first, by
id, and then its directories, by path. The root is the empty directory; a path that opens with a slash
does not lead to it.
-/
/-! ## The tree -/

namespace ModuleAtlas.Graph
open ModuleAtlas.Path
variable {α : Type} [Label α]

/-- The directories on the way to a path, the nearest first. The directory that is its own is
listed once and ends the way. -/
def ancestors (p : Text) : List Text :=
  let directory := dirname p
  if directory.isEmpty then []
  else if directory.length < p.length then directory :: ancestors directory
  else [directory]
termination_by p.length

/-- The directories on the way to registered files, each once. -/
def directories (graph : Graph α) : List Text :=
  (graph.nodes.values.flatMap fun node => ancestors (Label.path node.path)).eraseDups

/-- The registered files of a directory, by id. -/
def filesIn (graph : Graph α) (directory : Text) : List (Node α) :=
  (graph.nodes.values.filter fun node => dirname (Label.path node.path) == directory).mergeSort
    fun a b => Label.le a.id b.id

/-- The directories of a directory, by path. -/
def directoriesIn (directories : List Text) (directory : Text) : List Text :=
  Text.sort (directories.filter fun d => dirname d == directory)

/-- The node of a directory. -/
def directoryNode (directory : Text) (children : List (Node α)) : Node α :=
  { id := Label.ofText directory, name := Label.ofText (basename directory)
    path := Label.ofText directory, kind := Label.ofText Node.directoryKind
    children }

/-- What stands in a directory, so many levels deep at most. -/
def childrenOf (filesIn : Text → List (Node α)) (directoriesIn : Text → List Text) :
    (levels : Nat) → Text → List (Node α)
  | 0, directory => filesIn directory
  | levels + 1, directory =>
    filesIn directory ++ (directoriesIn directory).map fun d =>
      directoryNode d (childrenOf filesIn directoriesIn levels d)

/-- The children of the root. There are no more levels than directories. -/
def forest (graph : Graph α) : List (Node α) :=
  let directories := graph.directories
  childrenOf graph.filesIn (directoriesIn directories) directories.length []

/-- The graph with its tree built from the registry. -/
def withTree (graph : Graph α) : Graph α :=
  { graph with root := { graph.root with children := graph.forest } }

end ModuleAtlas.Graph

/-! ## Slashes

Every path of a graph with slashes instead of backslashes: the path of the root, the list of files, the
keys of the registry, and the id, path, imports and importers of every node below the root and of every
registered one. Names stay. -/

namespace ModuleAtlas
variable {α : Type} [Label α]

/-- The path with slashes only. -/
def Path.withSlashes (p : Text) : Text := Text.replaceChar '\\' '/' p

/-- The label with slashes only. -/
def Label.withSlashes (label : α) : α := Label.mapText Path.withSlashes label

namespace Node

mutual

/-- The node and all below it with slashes only. -/
def withSlashes : Node α → Node α
  | ⟨id, name, path, kind, several, imports, importers, children⟩ =>
    ⟨Label.withSlashes id, name, Label.withSlashes path, kind, several,
      imports.map Label.withSlashes, importers.map Label.withSlashes, withSlashesAll children⟩
termination_by structural node => node

/-- The nodes and all below them with slashes only. -/
def withSlashesAll : List (Node α) → List (Node α)
  | [] => []
  | node :: nodes => withSlashes node :: withSlashesAll nodes
termination_by structural nodes => nodes

end

end Node

/-- The graph with slashes only. Where keys of the registry meet, the last node stays. -/
def Graph.withSlashes (graph : Graph α) : Graph α where
  root :=
    { graph.root with
      path := Label.withSlashes graph.root.path
      children := Node.withSlashesAll graph.root.children }
  nodes := (graph.nodes.map Node.withSlashes).mapKeys Label.withSlashes
  files := graph.files.map Label.withSlashes
  stats := graph.stats

end ModuleAtlas
