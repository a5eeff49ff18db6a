import ModuleAtlas.Json.Shown
import ModuleAtlas.Path.Basic
import ModuleAtlas.Source.Role
/-!
Graphs: a root under which the directories and files of a project stand as a tree, a registry
of its files by their ids, the list of the files that were met, and counts. A file is
registered once (`register?`).
-/
namespace ModuleAtlas

/-! ## Labels

What a graph names its nodes, paths and imports by. The labels of a scanned project are texts. A graph
that comes from a document may have any JSON values for labels; those that are not texts are shown,
compared and written as the values they are, and have no path. -/

/-- What can name nodes, paths and imports. -/
class Label (α : Type) extends BEq α where
  /-- The label that is a text. -/
  ofText : Text → α
  /-- The value that stands for the label in a document. -/
  toJson : α → Json

namespace Label
variable {α : Type} [Label α]

instance : Label Text where
  ofText t := t
  toJson := .string

instance : Label Json where
  beq := Json.same
  ofText := .string
  toJson value := value

/-- The text that a label is. -/
def text? (label : α) : Option Text :=
  match toJson label with
  | .string t => some t
  | _ => none

/-- The path that a label is; labels that are no text have the empty path. -/
def path (label : α) : Text := (text? label).getD []

/-- The label as drawings and messages show it. -/
def shown (label : α) : Text := (toJson label).shown

/-- The label as a key of a document. -/
def keyText (label : α) : Text := (toJson label).keyText

/-- The label with its text changed; other labels stay. -/
def mapText (f : Text → Text) (label : α) : α :=
  match text? label with
  | some t => ofText (f t)
  | none => label

/-- The label is this text. -/
def isText (t : Text) (label : α) : Bool := label == ofText t

/-- The order of labels: texts by code point, numbers by value. -/
def le (a b : α) : Bool := (toJson a).le (toJson b)

@[simp] theorem text?_text (t : Text) : text? t = some t := rfl

@[simp] theorem path_text (t : Text) : path t = t := rfl

@[simp] theorem shown_text (t : Text) : shown t = t := rfl

@[simp] theorem keyText_text (t : Text) : keyText t = t := rfl

@[simp] theorem mapText_text (f : Text → Text) (t : Text) : mapText f t = f t := rfl

@[simp] theorem le_text (a b : Text) : le a b = Text.le a b := rfl

end Label

/-! ## Nodes -/

/-- A source file, a directory or the root of a graph. The id is what imports name. -/
structure Node (α : Type) where
  id : α
  name : α
  path : α
  kind : α
  several : Bool := false
  imports : List α := []
  importers : List α := []
  children : List (Node α) := []

namespace Node
variable {α β : Type}

/-- The kind of the root of a graph. -/
def rootKind : Text := "root"

/-- The kind of directories. -/
def directoryKind : Text := "directory"

mutual

/-- The node with other labels. -/
def map (f : α → β) : Node α → Node β
  | ⟨id, name, path, kind, several, imports, importers, children⟩ =>
    ⟨f id, f name, f path, f kind, several, imports.map f, importers.map f, mapAll f children⟩
termination_by structural node => node

/-- The nodes with other labels. -/
def mapAll (f : α → β) : List (Node α) → List (Node β)
  | [] => []
  | node :: nodes => map f node :: mapAll f nodes
termination_by structural nodes => nodes

end

/-- The node with a further child at the end. -/
def withChild (node child : Node α) : Node α := { node with children := node.children ++ [child] }

/-- The node with a further import at the end. -/
def withImport (node : Node α) (target : α) : Node α :=
  { node with imports := node.imports ++ [target] }

/-- The node with its descendant at an address changed, if there is one: an address names a
child by its position, then a child of that, and so on. -/
def changeAt? (f : Node α → Node α) : List Nat → Node α → Option (Node α)
  | [], node => some (f node)
  | n :: address, node =>
    (node.children[n]?).bind fun child =>
      (changeAt? f address child).map fun child =>
        { node with children := node.children.set n child }

/-- The node is a directory. -/
def isDirectory [Label α] (node : Node α) : Bool := Label.isText directoryKind node.kind

end Node

/-! ## Counts -/

/-- The counts of a graph. -/
structure Stats where
  nodes : Int := 0
  severalComponents : Int := 0
  components : Int := 0
  states : Int := 0
  utilities : Int := 0
deriving DecidableEq, Repr

namespace Stats
variable {α : Type} [Label α]

/-- The role that the kind of a node is. -/
def role? (node : Node α) : Option Role :=
  if Label.isText Role.component.word node.kind then some .component
  else if Label.isText Role.state.word node.kind then some .state
  else if Label.isText Role.utility.word node.kind then some .utility
  else none

/-- The counts after a node has been registered. -/
def record (stats : Stats) (node : Node α) : Stats :=
  let stats := { stats with nodes := stats.nodes + 1 }
  match role? node with
  | some .component =>
    { stats with
      components := stats.components + 1
      severalComponents := stats.severalComponents + if node.several then 1 else 0 }
  | some .state => { stats with states := stats.states + 1 }
  | some .utility => { stats with utilities := stats.utilities + 1 }
  | none => stats

end Stats

/-! ## Graphs -/

/-- The graph of a project. -/
structure Graph (α : Type) [Label α] where
  root : Node α
  nodes : Table α (Node α) := Table.empty
  files : List α := []
  stats : Stats := {}

namespace Graph
variable {α : Type} [Label α]

/-- The id of the root. -/
def rootId : Text := "root"

/-- The graph of a directory before anything has been met in it. -/
def ofDirectory (name path : Text) : Graph α where
  root :=
    { id := Label.ofText rootId, name := Label.ofText name, path := Label.ofText path
      kind := Label.ofText Node.rootKind }

instance : Inhabited (Graph α) := ⟨ofDirectory [] []⟩

/-- The graph with a further file in its list. -/
def meet (graph : Graph α) (file : α) : Graph α := { graph with files := graph.files ++ [file] }

/-- The graph with a node registered and counted, unless its id is taken. -/
def register? (graph : Graph α) (node : Node α) : Option (Graph α) :=
  if graph.nodes.contains node.id then none
  else some { graph with
    nodes := graph.nodes.insert node.id node
    stats := graph.stats.record node }

/-- The graph with a node in the registry under any key, not counted. -/
def put (graph : Graph α) (key : α) (node : Node α) : Graph α :=
  { graph with nodes := graph.nodes.insert key node }

/-- The ids of the files that import a file. -/
def importersOf (graph : Graph α) (id : α) : List α :=
  match graph.nodes.get? id with
  | some node => node.importers
  | none => []

/-- The registry in the order of its keys. -/
def sorted (graph : Graph α) : List (α × Node α) :=
  graph.nodes.entries.mergeSort fun a b => Label.le a.1 b.1

/-- The imports of all registered nodes: the key of the importing node, and what it imports. -/
def imports (graph : Graph α) : List (α × α) :=
  graph.sorted.flatMap fun (source, node) => node.imports.map (source, ·)

/-- The imports of registered nodes. -/
def edges (graph : Graph α) : List (α × α) :=
  graph.imports.filter fun edge => graph.nodes.contains edge.2

/-- The imports of anything else. -/
def dangling (graph : Graph α) : List (α × α) :=
  graph.imports.filter fun edge => !graph.nodes.contains edge.2

/-- The sources of the imports of one target, in order. -/
def sourcesOf (imports : List (α × α)) (target : α) : List α :=
  (imports.filter fun edge => edge.2 == target).map Prod.fst

/-- The graph in which every node knows the sources of the given imports of it, and no others. -/
def withImportersFrom (imports : List (α × α)) (graph : Graph α) : Graph α :=
  { graph with
    nodes := graph.nodes.mapEntries fun key node =>
      { node with importers := sourcesOf imports key } }

/-- The graph in which every node knows its importers, one for each import of it. -/
def withImporters (graph : Graph α) : Graph α := graph.withImportersFrom graph.imports

/-- One line about a graph. -/
def summary (graph : Graph α) : Text :=
  "ProjectGraph(root=" ++ (Label.toJson graph.root.name).quoted ++ ", nodes="
    ++ Text.ofNat graph.nodes.size ++ ", files=" ++ Text.ofNat graph.files.length
    ++ ", edges=" ++ Text.ofNat graph.edges.length ++ [(')' : CodePoint)]

end Graph

end ModuleAtlas
