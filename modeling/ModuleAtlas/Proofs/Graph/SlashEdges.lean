import ModuleAtlas.Proofs.Graph.Slash
/-!
What slashes leave of a graph, and how thorough they are. Every node that is left stands where it
stood, with slashes in its id, its path and the paths it lists and with nothing else changed, and a
second time changes nothing (`Slashed`, `withSlashes_withSlashes`). If the keys and imports of the
registry stay apart, so do its edges and its dangling imports (`slashes_thorough`).
-/
namespace ModuleAtlas

theorem Path.withSlashes_withSlashes (p : Text) : withSlashes (withSlashes p) = withSlashes p :=
  withSlashes_eq_self (no_backslash_in_withSlashes p)

namespace Node

/-! ## Nodes at addresses -/

/-- The node at an address, from a node downwards: an address names a child by its position, then a
child of that, and so on. -/
def at? {α : Type} : List Nat → Node α → Option (Node α)
  | [], node => some node
  | n :: address, node => (node.children[n]?).bind (at? address)

theorem at?_cons_of_children {before after : Node Text}
    (children : after.children = before.children.map withSlashes) (n : Nat) {address : List Nat}
    (below : ∀ child : Node Text, at? address child.withSlashes = (at? address child).map withSlashes) :
    at? (n :: address) after = (at? (n :: address) before).map withSlashes := by
  rw [at?, at?, children, List.getElem?_map]
  cases before.children[n]? with
  | none => rfl
  | some child => exact below child

/-- Slashes move no node. -/
theorem at?_withSlashes (address : List Nat) (node : Node Text) :
    at? address node.withSlashes = (at? address node).map withSlashes := by
  induction address generalizing node with
  | nil => rfl
  | cons n address ih => exact at?_cons_of_children (children_withSlashes node) n ih

/-- A node with slashes: its labels that are paths have them instead of backslashes, and there is no
backslash left in them, while its name, kind, flag and the number of its children are what they were. -/
structure Slashed (before after : Node Text) : Prop where
  id : after.id = Path.withSlashes before.id ∧ .scalar '\\' ∉ after.id
  path : after.path = Path.withSlashes before.path ∧ .scalar '\\' ∉ after.path
  imports : after.imports = before.imports.map Path.withSlashes ∧ ∀ p ∈ after.imports, .scalar '\\' ∉ p
  importers : after.importers = before.importers.map Path.withSlashes ∧
    ∀ p ∈ after.importers, .scalar '\\' ∉ p
  name : after.name = before.name
  kind : after.kind = before.kind
  several : after.several = before.several
  width : after.children.length = before.children.length

theorem no_backslash_in_map {paths : List Text} :
    ∀ p ∈ paths.map Path.withSlashes, .scalar '\\' ∉ p := by
  rintro _ inside
  obtain ⟨p, -, rfl⟩ := List.mem_map.1 inside
  exact Path.no_backslash_in_withSlashes p

theorem slashed_withSlashes (node : Node Text) : Slashed node node.withSlashes where
  id := ⟨id_withSlashes node, by simp [Path.no_backslash_in_withSlashes]⟩
  path := ⟨path_withSlashes node, by simp [Path.no_backslash_in_withSlashes]⟩
  imports := ⟨imports_withSlashes node, by simpa using no_backslash_in_map⟩
  importers := ⟨importers_withSlashes node, by simpa using no_backslash_in_map⟩
  name := name_withSlashes node
  kind := kind_withSlashes node
  several := several_withSlashes node
  width := by simp

/-- At an address stand the same nodes, the one with slashes, or none. -/
theorem slashed_of_eq_map {before after : Option (Node Text)} (same : after = before.map withSlashes) :
    Option.Rel Slashed before after := by
  subst same
  cases before with
  | none => exact .none
  | some node => exact .some (slashed_withSlashes node)

mutual

theorem withSlashes_withSlashes : (node : Node Text) → node.withSlashes.withSlashes = node.withSlashes
  | ⟨_, _, _, _, _, _, _, children⟩ => by
    have below := withSlashesAll_withSlashesAll children
    simp [withSlashes, Label.withSlashes, below, Path.withSlashes_withSlashes, Function.comp_def]

theorem withSlashesAll_withSlashesAll : (nodes : List (Node Text)) →
    withSlashesAll (withSlashesAll nodes) = withSlashesAll nodes
  | [] => rfl
  | node :: nodes => by
    rw [withSlashesAll, withSlashesAll, withSlashes_withSlashes node,
      withSlashesAll_withSlashesAll nodes]

end

end Node

namespace Graph
open ModuleAtlas.Path (StayApart)

/-! ## The registry -/

section
variable {graph : Graph Text} {key : Text} {node : Node Text}

/-- Of registered nodes whose keys become one the last one stays, with slashes. -/
theorem get?_withSlashes_iff : graph.withSlashes.nodes.get? key = some node ↔
    ∃ before entry after, graph.nodes.entries = before ++ entry :: after ∧
      Path.withSlashes entry.1 = key ∧ node = entry.2.withSlashes ∧
      ∀ later ∈ after, Path.withSlashes later.1 ≠ key := by
  rw [nodes_withSlashes, Table.get?_ofList_eq_some_iff, slashedEntries]
  constructor
  · rintro ⟨before, after, split, last⟩
    obtain ⟨front, back, whole, rfl, rest⟩ := List.map_eq_append_iff.1 split
    obtain ⟨entry, behind, rfl, here, rfl⟩ := List.map_eq_cons_iff.1 rest
    cases here
    exact ⟨front, entry, behind, whole, rfl, rfl,
      fun later inside => last _ (List.mem_map_of_mem inside)⟩
  · rintro ⟨before, entry, after, split, rfl, rfl, last⟩
    refine ⟨_, _, by rw [split, List.map_append, List.map_cons], ?_⟩
    intro pair inside
    obtain ⟨later, behind, rfl⟩ := List.mem_map.1 inside
    exact last later behind

theorem mem_keys_withSlashes :
    key ∈ graph.withSlashes.nodes.keys ↔ key ∈ graph.nodes.keys.map Path.withSlashes := by
  rw [nodes_withSlashes, Table.mem_keys_ofList, keys_slashedEntries]

end

/-- What is registered has slashes already, under its key and in the node. -/
theorem slashed_of_mem {graph : Graph Text} {entry : Text × Node Text}
    (inside : entry ∈ graph.withSlashes.nodes.entries) :
    (Path.withSlashes entry.1, entry.2.withSlashes) = entry := by
  rw [nodes_withSlashes] at inside
  obtain ⟨old, -, rfl⟩ := List.mem_map.1 (Table.mem_of_mem_ofList inside)
  rw [Path.withSlashes_withSlashes, Node.withSlashes_withSlashes]

theorem eq_of_parts {left right : Graph Text} (root : left.root = right.root)
    (files : left.files = right.files) (nodes : left.nodes = right.nodes)
    (stats : left.stats = right.stats) : left = right := by
  obtain ⟨_, _, _, _⟩ := left
  obtain ⟨_, _, _, _⟩ := right
  subst root files nodes stats
  rfl

theorem withSlashes_withSlashes (graph : Graph Text) :
    graph.withSlashes.withSlashes = graph.withSlashes := by
  have registry : graph.withSlashes.withSlashes.nodes = graph.withSlashes.nodes := by
    have entries : graph.withSlashes.slashedEntries = graph.withSlashes.nodes.entries := by
      rw [slashedEntries]
      conv_rhs => rw [← List.map_id graph.withSlashes.nodes.entries]
      exact List.map_congr_left fun entry inside => slashed_of_mem inside
    rw [nodes_withSlashes, entries, Table.ofList_entries]
  have root : graph.withSlashes.withSlashes.root = graph.withSlashes.root := by
    simp [withSlashes, Label.withSlashes, Node.withSlashesAll_withSlashesAll,
      Path.withSlashes_withSlashes]
  have files : graph.withSlashes.withSlashes.files = graph.withSlashes.files := by
    simp [withSlashes, Label.withSlashes, Path.withSlashes_withSlashes, Function.comp_def]
  exact eq_of_parts root files registry rfl

/-! ## Edges -/

/-- The import with slashes. -/
def slashedImport (edge : Text × Text) : Text × Text :=
  (Path.withSlashes edge.1, Path.withSlashes edge.2)

section
variable {graph : Graph Text}

theorem importsIn_slashedEntries :
    importsIn graph.slashedEntries = (importsIn graph.nodes.entries).map slashedImport := by
  simp only [importsIn, slashedEntries, List.flatMap_map, List.map_flatMap,
    Node.imports_withSlashes, List.map_map]
  rfl

theorem imports_perm (graph : Graph Text) : graph.imports.Perm (importsIn graph.nodes.entries) :=
  graph.sorted_perm.flatMap_right _

/-- No two keys or imports of registered nodes become one with slashes. -/
def LabelsStayApart (graph : Graph Text) : Prop :=
  StayApart (graph.nodes.keys ++ graph.imports.map Prod.snd)

variable (apart : LabelsStayApart graph)
include apart

theorem keys_apart : StayApart graph.nodes.keys := by
  intro p held q also
  exact apart p (List.mem_append_left _ held) q (List.mem_append_left _ also)

theorem imports_withSlashes_perm :
    graph.withSlashes.imports.Perm (graph.imports.map slashedImport) := by
  refine (imports_perm graph.withSlashes).trans ?_
  rw [entries_withSlashes (keys_apart apart), importsIn_slashedEntries]
  exact ((imports_perm graph).map slashedImport).symm

/-- An import is one of a registered file with slashes exactly if it has been one before. -/
theorem contains_slashedImport {edge : Text × Text} (inside : edge ∈ graph.imports) :
    graph.withSlashes.nodes.contains (slashedImport edge).2 = graph.nodes.contains edge.2 := by
  rw [Bool.eq_iff_iff, Table.contains_iff, Table.contains_iff, mem_keys_withSlashes]
  constructor
  · intro registered
    obtain ⟨key, held, same⟩ := List.mem_map.1 registered
    have imported : edge.2 ∈ graph.imports.map Prod.snd := List.mem_map_of_mem inside
    rwa [← apart key (List.mem_append_left _ held) edge.2 (List.mem_append_right _ imported) same]
  · exact List.mem_map_of_mem

theorem edges_withSlashes_perm :
    graph.withSlashes.edges.Perm (graph.edges.map slashedImport) := by
  have kept := (imports_withSlashes_perm apart).filter
    fun edge => graph.withSlashes.nodes.contains edge.2
  rw [List.filter_map] at kept
  rwa [edges, edges, ← List.filter_congr fun edge inside => contains_slashedImport apart inside]

theorem dangling_withSlashes_perm :
    graph.withSlashes.dangling.Perm (graph.dangling.map slashedImport) := by
  have kept := (imports_withSlashes_perm apart).filter
    fun edge => !graph.withSlashes.nodes.contains edge.2
  rw [List.filter_map] at kept
  rwa [dangling, dangling, ← List.filter_congr fun edge inside =>
    congrArg (!·) (contains_slashedImport apart inside)]

end

/-! ## The graph with slashes -/

/-- A graph with slashes: its paths have them instead of backslashes, and apart from that it is what
it was. -/
structure Slashed (before after : Graph Text) : Prop where
  /-- Of the root the path is changed, and what stands below it. -/
  root : after.root = { before.root with
    path := Path.withSlashes before.root.path, children := after.root.children }
  rootPath : .scalar '\\' ∉ after.root.path
  below : ∀ address, address ≠ [] →
    Option.Rel Node.Slashed (before.root.at? address) (after.root.at? address)
  files : after.files = before.files.map Path.withSlashes ∧ ∀ file ∈ after.files, .scalar '\\' ∉ file
  keys : ∀ key, key ∈ after.nodes.keys ↔ key ∈ before.nodes.keys.map Path.withSlashes
  plainKeys : ∀ key ∈ after.nodes.keys, .scalar '\\' ∉ key
  /-- Under each key stands the last of the nodes whose keys have become this one, with slashes in it
  and in all nodes below it. -/
  nodes : ∀ key node, after.nodes.get? key = some node →
    ∃ front entry back, before.nodes.entries = front ++ entry :: back ∧
      Path.withSlashes entry.1 = key ∧ (∀ later ∈ back, Path.withSlashes later.1 ≠ key) ∧
      ∀ address, Option.Rel Node.Slashed (entry.2.at? address) (node.at? address)
  stats : after.stats = before.stats

theorem slashed_withSlashes (graph : Graph Text) : Slashed graph graph.withSlashes where
  root := rfl
  rootPath := Path.no_backslash_in_withSlashes graph.root.path
  below address some := by
    cases address with
    | nil => exact absurd rfl some
    | cons n address =>
      have children : graph.withSlashes.root.children = graph.root.children.map Node.withSlashes :=
        Node.withSlashesAll_eq_map graph.root.children
      exact Node.slashed_of_eq_map
        (Node.at?_cons_of_children children n (Node.at?_withSlashes address))
  files := ⟨rfl, Node.no_backslash_in_map⟩
  keys key := mem_keys_withSlashes
  plainKeys key held := Node.no_backslash_in_map key (mem_keys_withSlashes.1 held)
  nodes key node found := by
    obtain ⟨front, entry, back, split, same, rfl, last⟩ := get?_withSlashes_iff.1 found
    exact ⟨front, entry, back, split, same, last,
      fun address => Node.slashed_of_eq_map (Node.at?_withSlashes address entry.2)⟩
  stats := rfl

/-- Slashes are put everywhere at once. A second time changes nothing; no backslash is left in the
path of the root, the files, the keys of the registry, or in ids, paths, imports and importers of
registered nodes and of nodes at any depth below them or below the root, and nothing else changes. If
no two keys or imports of the registry become one, then the registry keeps its size, and its edges
and dangling imports are what they were, with slashes. -/
theorem slashes_thorough (graph : Graph Text) :
    graph.withSlashes.withSlashes = graph.withSlashes ∧
    Slashed graph graph.withSlashes ∧
    (StayApart (graph.nodes.keys ++ graph.imports.map Prod.snd) →
      graph.withSlashes.nodes.size = graph.nodes.size ∧
      graph.withSlashes.edges.Perm (graph.edges.map slashedImport) ∧
      graph.withSlashes.dangling.Perm (graph.dangling.map slashedImport)) := by
  refine ⟨withSlashes_withSlashes graph, slashed_withSlashes graph, fun apart => ?_⟩
  exact ⟨size_withSlashes_iff.2 (keys_apart apart), edges_withSlashes_perm apart,
    dangling_withSlashes_perm apart⟩

/-- Two files that import each other along backslashes, one of them along slashes too, and a file
that is not there. -/
def crossed : Graph Text where
  root := { id := rootId, name := "app", path := "C:\\app", kind := Node.rootKind }
  nodes := Table.ofList
    [("a\\b.js", { id := "a\\b.js", name := "b", path := "a\\b.js", kind := "util"
                   imports := ["c\\d.js", "x\\y"] }),
     ("c\\d.js", { id := "c\\d.js", name := "d", path := "c\\d.js", kind := "util"
                   imports := ["a\\b.js"] })]

theorem crossed_thorough :
    StayApart (crossed.nodes.keys ++ crossed.imports.map Prod.snd) ∧
      crossed.withSlashes.edges.Perm [("a/b.js", "c/d.js"), ("c/d.js", "a/b.js")] ∧
      crossed.withSlashes.dangling.Perm [("a/b.js", "x/y")] := by
  have ordered : crossed.sorted = crossed.nodes.entries :=
    List.mergeSort_of_pairwise (by decide +kernel)
  have listed : crossed.imports = importsIn crossed.nodes.entries := by rw [imports_eq, ordered]
  have labels : ∀ p ∈ crossed.nodes.keys ++ crossed.imports.map Prod.snd, .scalar '/' ∉ p := by
    rw [listed]
    decide +kernel
  have apart : StayApart (crossed.nodes.keys ++ crossed.imports.map Prod.snd) :=
    fun p inside q also => Path.withSlashes_injective (labels p inside) (labels q also)
  obtain ⟨-, fits, hangs⟩ := (slashes_thorough crossed).2.2 apart
  refine ⟨apart, fits.trans (.of_eq ?_), hangs.trans (.of_eq ?_)⟩
  · rw [edges, listed]
    decide +kernel
  · rw [dangling, listed]
    decide +kernel

end Graph
end ModuleAtlas
