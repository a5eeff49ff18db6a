import ModuleAtlas.Graph.Document
import ModuleAtlas.Graph.Drawing
import ModuleAtlas.Graph.Tree
/-!
Working on graphs of documents, whose labels may be any values. Keys have to be scalars, paths
have to be texts, and what is sorted must have an order. Where a label is not what an operation
needs, the operation stops there; what it has done so far stays done (`Stopped`).
-/
namespace ModuleAtlas.Graph

/-- What has become of a value, and why the work on it stopped early if it did. -/
structure Stopped (α : Type) where
  value : α
  fault : Option GraphFault := none

/-- The value is a text. -/
def isTextual (value : Json) : Bool := (Label.text? value).isSome

/-- Looks up something under a key, which has to be a scalar. -/
def keyed {β : Type} (key : Json) (found : β) : Except GraphFault β :=
  if key.isScalar then .ok found else .error .kind

/-- The graph with a node registered and counted. -/
def tryRegister (graph : Graph Json) (node : Node Json) : Except GraphFault (Graph Json) :=
  (keyed node.id (graph.register? node)).bind fun added =>
    match added with
    | some graph => .ok graph
    | none => .error (.taken node.id.shown)

/-- The graph with the imports of a registered node replaced. -/
def trySetImports (graph : Graph Json) (id : Json) (imports : List Json) :
    Except GraphFault (Graph Json) :=
  (keyed id (graph.nodes.get? id)).bind fun found =>
    match found with
    | some node =>
      .ok { graph with nodes := graph.nodes.insert id { node with imports := imports } }
    | none => .error (.missing id.shown)

/-- The imports of all registered nodes, if the keys have an order and all targets can be
looked up. -/
def tryImports (graph : Graph Json) : Except GraphFault Unit :=
  if Json.areOrdered graph.nodes.keys && graph.imports.all fun edge => edge.2.isScalar then .ok ()
  else .error .kind

/-- The graph in which every node knows its importers. -/
def tryImporters (graph : Graph Json) : Stopped (Graph Json) :=
  if Json.areOrdered graph.nodes.keys then
    let usable := graph.imports.takeWhile fun edge => edge.2.isScalar
    { value := graph.withImportersFrom usable
      fault := if usable.length = graph.imports.length then none else some .kind }
  else { value := graph.withImportersFrom [], fault := some .kind }

/-- The files of every directory have an order. -/
def areSortable (graph : Graph Json) : Bool :=
  ([] :: graph.directories).all fun directory =>
    Path.isAbsolute directory || Json.areOrdered ((graph.filesIn directory).map (·.id))

/-- The graph with its tree built from the registry. -/
def tryTree (graph : Graph Json) : Stopped (Graph Json) :=
  if !graph.nodes.values.all (fun node => isTextual node.path) then
    { value := graph, fault := some .kind }
  else if graph.areSortable then { value := graph.withTree }
  else { value := { graph with root := { graph.root with children := [] } }, fault := some .kind }

/-! ## Slashes -/

/-- Puts slashes into one label, unless the work has stopped; it stops at a label that is no
text. -/
def slashLabel (label : Json) : StateM Bool Json := fun stopped =>
  if stopped then (label, true)
  else if isTextual label then (Label.withSlashes label, false)
  else (label, true)

/-- Puts slashes into a list of labels as a whole. -/
def slashLabels (labels : List Json) : StateM Bool (List Json) := fun stopped =>
  if stopped then (labels, true)
  else if labels.all isTextual then (labels.map Label.withSlashes, false)
  else (labels, true)

mutual

/-- Puts slashes into a node and all below it. -/
def slashNode : Node Json → StateM Bool (Node Json)
  | ⟨id, name, path, kind, several, imports, importers, children⟩ => do
    let id ← slashLabel id
    let path ← slashLabel path
    let imports ← slashLabels imports
    let importers ← slashLabels importers
    let children ← slashNodes children
    return ⟨id, name, path, kind, several, imports, importers, children⟩
termination_by structural node => node

/-- Puts slashes into nodes one after the other. -/
def slashNodes : List (Node Json) → StateM Bool (List (Node Json))
  | [] => pure []
  | node :: nodes => do
    let node ← slashNode node
    let nodes ← slashNodes nodes
    return node :: nodes
termination_by structural nodes => nodes

end

/-- Puts slashes into the nodes of a registry, each with its key. -/
def slashEntries :
    List (Json × Node Json) → StateM Bool (List (Json × Json × Node Json))
  | [] => pure []
  | (key, node) :: rest => do
    let node ← slashNode node
    let newKey ← slashLabel key
    let rest ← slashEntries rest
    return (key, newKey, node) :: rest

/-- Puts slashes into a graph in the order root, files, registry. The registry gets its new keys
only when all is done. -/
def trySlashes (graph : Graph Json) : Stopped (Graph Json) :=
  let work : StateM Bool (Graph Json) := do
    let path ← slashLabel graph.root.path
    let children ← slashNodes graph.root.children
    let files ← slashLabels graph.files
    let entries ← slashEntries graph.nodes.entries
    let stopped ← get
    return {
      root := { graph.root with path, children }
      files
      nodes := Table.ofList (entries.map fun (key, newKey, node) =>
        (if stopped then key else newKey, node))
      stats := graph.stats }
  let (graph, stopped) := work.run false
  { value := graph, fault := if stopped then some .operation else none }

/-! ## Drawing -/

mutual

/-- A node of the tree can be drawn with all below it. -/
def isDrawable (showImports : Bool) : Node Json → Bool
  | ⟨id, name, path, kind, several, imports, importers, children⟩ =>
    let node : Node Json := ⟨id, name, path, kind, several, imports, importers, children⟩
    if node.isDirectory then areDrawable showImports children
    else isTextual path && kind.isScalar
      && (!showImports || (id.isScalar && imports.all Json.isScalar))
termination_by structural node => node

/-- All nodes can be drawn. -/
def areDrawable (showImports : Bool) : List (Node Json) → Bool
  | [] => true
  | node :: nodes => isDrawable showImports node && areDrawable showImports nodes
termination_by structural nodes => nodes

end

/-- The drawing of a graph. -/
def tryDrawing (graph : Graph Json) (strokes : Strokes) (showImports : Bool) :
    Except GraphFault Text :=
  if areDrawable showImports graph.root.children then .ok (graph.drawing strokes showImports)
  else .error .kind

/-- The graph of the text of its document, with the question whether it is the same. -/
def isRestored (graph : Graph Json) : Except GraphFault Bool :=
  (ofText (graph.text (.indented 2))).map graph.same

end ModuleAtlas.Graph
