import ModuleAtlas.Graph.Basic
import ModuleAtlas.Json.Printer
import ModuleAtlas.Json.Reader
/-!
Graphs as JSON documents. A document has the root, the registry, the list of files and the
counts. Reading one back is lenient: of a node only the id must be there, a member that is
missing or empty stands for nothing, and labels may be any values (`Graph.ofJson`).
-/
namespace ModuleAtlas

/-- Why a document or a change of a graph is refused. -/
inductive GraphFault
  /-- The document is no JSON. -/
  | malformed
  /-- A member that must be there is missing. -/
  | missing (key : Text)
  /-- A value is of a kind that cannot be used in its place. -/
  | kind
  /-- A value lacks an operation that its place needs. -/
  | operation
  /-- A text is no integer. -/
  | integer (t : Text) (fault : Number.IntegerFault)
  /-- An integer is wanted of what is not a number. -/
  | notANumber
  /-- An integer is wanted of an infinite number. -/
  | infinite
  /-- The id of a node is taken. -/
  | taken (id : Text)
  /-- There is no node at an address. -/
  | address
deriving DecidableEq, Repr

/-- What is said about a refused document or change. -/
def GraphFault.message : GraphFault → Text
  | missing key => Text.quoted key
  | integer t fault => fault.message 10 t
  | notANumber => "cannot convert float NaN to integer"
  | taken id => "Duplicate node id: " ++ id
  | malformed | kind | operation | infinite | address => []

/-! ## Writing -/

namespace Node
variable {α : Type} [Label α]

mutual

/-- The document of a node. Only a node with children has a member for them. -/
def toJson : Node α → Json
  | ⟨id, name, path, kind, several, imports, importers, children⟩ =>
    let own : List (Text × Json) :=
      [("id", Label.toJson id), ("name", Label.toJson name), ("path", Label.toJson path),
       ("type", Label.toJson kind), ("multipleComp", .bool several),
       ("imports", .array (imports.map Label.toJson)),
       ("importedBy", .array (importers.map Label.toJson))]
    let below : List (Text × Json) :=
      if children.isEmpty then [] else [("children", .array (toJsonAll children))]
    .object (own ++ below)
termination_by structural node => node

/-- The documents of nodes. -/
def toJsonAll : List (Node α) → List Json
  | [] => []
  | node :: nodes => toJson node :: toJsonAll nodes
termination_by structural nodes => nodes

end

end Node

/-- The document of counts. -/
def Stats.toJson (stats : Stats) : Json :=
  .object [("totalComponents", .int stats.nodes), ("multiCompFiles", .int stats.severalComponents),
    ("componentFiles", .int stats.components), ("stateFiles", .int stats.states),
    ("utilFiles", .int stats.utilities)]

/-- The document of a graph. -/
def Graph.toJson {α : Type} [Label α] (graph : Graph α) : Json :=
  .object [("root", graph.root.toJson),
    ("nodesMap", .object (graph.nodes.entries.map fun (key, node) =>
      (Label.keyText key, node.toJson))),
    ("files", .array (graph.files.map Label.toJson)),
    ("stats", graph.stats.toJson)]

/-- The text of the document of a graph. -/
def Graph.text {α : Type} [Label α] (graph : Graph α) (layout : Json.Layout) : Text :=
  graph.toJson.text layout

/-! ## Reading -/

namespace Json

/-- The members of a value that has to be an object; anything else has no members at all. -/
def fields (value : Json) : Except GraphFault (List (Text × Json)) :=
  match value with
  | object ms => .ok ms
  | _ => .error .kind

/-- The elements of a value: those of an array, the characters of a text, the keys of an object.
A value that is missing or counts as false has none, and other values are refused. -/
def listed (value : Option Json) : Except GraphFault (List Json) :=
  match value with
  | none => .ok []
  | some value =>
    if !value.isTruthy then .ok []
    else match value with
      | array xs => .ok xs
      | string t => .ok (t.map fun c => string [c])
      | object ms => .ok (ms.map fun member => string member.1)
      | _ => .error .kind

/-- The integer that a value is or writes. -/
def toInteger (value : Json) : Except GraphFault Int :=
  match value with
  | bool b => .ok (if b then 1 else 0)
  | int n => .ok n
  | double (.finite negative mantissa exponent) =>
    .ok (Double.truncate negative mantissa exponent)
  | double (.infinite _) => .error .infinite
  | double .nan => .error .notANumber
  | string t => (Number.readInteger 10 t).mapError (.integer t)
  | _ => .error .kind

end Json

namespace Node

/-- A node of the members of its document, given its children. -/
def ofMembers (ms : List (Text × Json)) (children : Except GraphFault (List (Node Json))) :
    Except GraphFault (Node Json) :=
  match Json.member? ms "id" with
  | none => .error (.missing "id")
  | some id =>
    (Json.listed (Json.member? ms "imports")).bind fun imports =>
      (Json.listed (Json.member? ms "importedBy")).bind fun importers =>
        children.map fun children =>
          { id
            name := (Json.member? ms "name").getD (.string [])
            path := (Json.member? ms "path").getD (.string [])
            kind := (Json.member? ms "type").getD (.string Role.utility.word)
            several := ((Json.member? ms "multipleComp").map Json.isTruthy).getD false
            imports, importers, children }

/-- The nodes of a value that is no array: none if it counts as false. -/
def ofOther (value : Json) : Except GraphFault (List (Node Json)) :=
  if value.isTruthy then .error .kind else .ok []

mutual

/-- The node of a document. -/
def ofJson : Json → Except GraphFault (Node Json)
  | .object ms => ofMembers ms (ofChildren ms)
  | _ => .error .kind
termination_by structural value => value

/-- The nodes of an array, and of other values none. -/
def ofValue : Json → Except GraphFault (List (Node Json))
  | .array xs => ofJsonAll xs
  | value => ofOther value
termination_by structural value => value

/-- The nodes of the first member for children. -/
def ofChildren : List (Text × Json) → Except GraphFault (List (Node Json))
  | [] => .ok []
  | (key, value) :: ms => if key == ("children" : Text) then ofValue value else ofChildren ms
termination_by structural members => members

/-- The nodes of documents. -/
def ofJsonAll : List Json → Except GraphFault (List (Node Json))
  | [] => .ok []
  | x :: xs => (ofJson x).bind fun node => (ofJsonAll xs).map (node :: ·)
termination_by structural values => values

end

end Node

namespace Stats

/-- One count of a document; a missing one is zero. -/
def count (ms : List (Text × Json)) (key : Text) : Except GraphFault Int :=
  match Json.member? ms key with
  | none => .ok 0
  | some value => value.toInteger

/-- The counts of a document. -/
def ofMembers (ms : List (Text × Json)) : Except GraphFault Stats :=
  (count ms "totalComponents").bind fun nodes =>
    (count ms "multiCompFiles").bind fun severalComponents =>
      (count ms "componentFiles").bind fun components =>
        (count ms "stateFiles").bind fun states =>
          (count ms "utilFiles").map fun utilities =>
            { nodes, severalComponents, components, states, utilities }

end Stats

namespace Graph

/-- The members of an optional part of a document. A part that counts as false has none. -/
def partMembers (value : Option Json) : Except GraphFault (List (Text × Json)) :=
  match value with
  | none => .ok []
  | some (.object ms) => .ok ms
  | some value => if value.isTruthy then .error .operation else .ok []

/-- The registry of the members of its document. -/
def registryOf (ms : List (Text × Json)) : Except GraphFault (Table Json (Node Json)) :=
  (ms.mapM fun (key, value) => (Node.ofJson value).map fun node => (Json.string key, node)).map
    Table.ofList

/-- The graph of a document. -/
def ofJson (value : Json) : Except GraphFault (Graph Json) :=
  value.fields.bind fun ms =>
    match Json.member? ms "root" with
    | none => .error (.missing "root")
    | some root =>
      (Node.ofJson root).bind fun root =>
        ((partMembers (Json.member? ms "nodesMap")).bind registryOf).bind fun nodes =>
          (Json.listed (Json.member? ms "files")).bind fun files =>
            ((partMembers (Json.member? ms "stats")).bind Stats.ofMembers).map fun stats =>
              { root, nodes, files, stats }

/-- The graph of the text of a document. -/
def ofText (t : Text) : Except GraphFault (Graph Json) :=
  match Json.read t with
  | .ok value => ofJson value
  | .error .malformed => .error .malformed
  | .error fault => .error (.integer [] fault)

/-- The two graphs are the same data. A key that is no text is never the same as one read from
a document. -/
def same {α β : Type} [Label α] [Label β] (a : Graph α) (b : Graph β) : Bool :=
  a.nodes.keys.all (fun key => (Label.text? key).isSome)
    && b.nodes.keys.all (fun key => (Label.text? key).isSome) && a.toJson.same b.toJson

end Graph
end ModuleAtlas
