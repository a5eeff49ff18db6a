import ModuleAtlas.Graph.Basic
import ModuleAtlas.Text.Class
/-!
The drawing of a graph as text: the tree below the root, one line for each node, and counts at
the end. A line is drawn in as many units as the node is levels deep: a bar or blanks for each
directory around it, and a connector that tells whether it is the last of its siblings.
-/
namespace ModuleAtlas

/-- The units that lines are drawn with. -/
structure Strokes where
  branch : Text
  last : Text
  bar : Text
  blank : Text
deriving DecidableEq, Repr

namespace Strokes

/-- Strokes of box drawing characters. -/
def box : Strokes := ⟨"├── ", "└── ", "│   ", "    "⟩

/-- Strokes of the basic alphabet. -/
def plain : Strokes := ⟨"|-- ", "\\-- ", "|   ", "    "⟩

end Strokes

namespace Graph
variable {α : Type} [Label α]

/-- The mark of a role. -/
def mark (kind : α) : Text :=
  if Label.isText Role.component.word kind then "[C]"
  else if Label.isText Role.state.word kind then "[S]"
  else if Label.isText Role.utility.word kind then "[U]"
  else []

/-- The label of a node: a directory by its name, a file by the last segment of its path and
the mark of its role. A file with several components has one more mark. -/
def labelText (node : Node α) : Text :=
  if node.isDirectory then Label.shown node.name ++ [.scalar '/']
  else
    let plain := Text.trimEndWhile Text.isBlank
      (Path.basename (Label.path node.path) ++ .scalar ' ' :: mark node.kind)
    if node.several then plain ++ " !" else plain

/-- The lines behind connectors, the last one behind its own. -/
def connected (strokes : Strokes) (indent : Text) : List Text → List Text
  | [] => []
  | [line] => [indent ++ strokes.last ++ line]
  | line :: lines => (indent ++ strokes.branch ++ line) :: connected strokes indent lines

/-- What is said about an import. -/
def importText (graph : Graph α) (target : α) : Text :=
  let remark : Text := if graph.nodes.contains target then [] else " [MISSING]"
  "-> " ++ Label.shown target ++ remark

/-- The imports of a node in the tree, and the importers that the registry knows of it. -/
def links (graph : Graph α) (node : Node α) : List Text :=
  node.imports.map graph.importText
    ++ (graph.importersOf node.id).map fun source => "<- " ++ Label.shown source

mutual

/-- The lines of one node, behind the connector given for it and, below it, the unit. -/
def nodeLines (graph : Graph α) (strokes : Strokes) (showImports : Bool)
    (indent connector unit : Text) : Node α → List Text
  | ⟨id, name, path, kind, several, imports, importers, children⟩ =>
    let node : Node α := ⟨id, name, path, kind, several, imports, importers, children⟩
    (indent ++ connector ++ labelText node) ::
      if node.isDirectory then forestLines graph strokes showImports (indent ++ unit) children
      else if showImports then connected strokes (indent ++ unit) (graph.links node)
      else []
termination_by structural node => node

/-- The lines of siblings. -/
def forestLines (graph : Graph α) (strokes : Strokes) (showImports : Bool) (indent : Text) :
    List (Node α) → List Text
  | [] => []
  | node :: nodes =>
    (match nodes with
      | [] => nodeLines graph strokes showImports indent strokes.last strokes.blank node
      | _ :: _ => nodeLines graph strokes showImports indent strokes.branch strokes.bar node)
      ++ forestLines graph strokes showImports indent nodes
termination_by structural nodes => nodes

end

/-- The counts below a drawing. -/
def countLines (graph : Graph α) : List Text :=
  ["Files: " ++ Text.ofNat graph.files.length,
   "Components: " ++ Text.ofInt graph.stats.components ++ " (multiple per file: "
     ++ Text.ofInt graph.stats.severalComponents ++ [(')' : CodePoint)],
   "State: " ++ Text.ofInt graph.stats.states,
   "Utilities: " ++ Text.ofInt graph.stats.utilities]

/-- The lines of a drawing. -/
def drawingLines (graph : Graph α) (strokes : Strokes) (showImports : Bool) : List Text :=
  (Label.shown graph.root.name ++ [('/' : CodePoint)])
    :: forestLines graph strokes showImports [] graph.root.children
    ++ [] :: graph.countLines

/-- The drawing of a graph. -/
def drawing (graph : Graph α) (strokes : Strokes) (showImports : Bool) : Text :=
  Text.joinWith ['\n'] (graph.drawingLines strokes showImports)

end Graph
end ModuleAtlas
