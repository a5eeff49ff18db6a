import ModuleAtlas.Graph.Basic
import ModuleAtlas.Proofs.Table
/-!
Importers are imports read backwards. A node has a file among its importers as often as this file
imports it (`count_sourcesOf`), whatever importers it had before and in whatever order the files
were registered. So the importers of all nodes tell the edges of the graph, and the edges and the
dangling imports together tell every import.
-/
namespace ModuleAtlas

/-- The node without importers. -/
def Node.withoutImporters (node : Node Text) : Node Text := { node with importers := [] }

namespace Graph

/-! ## Sources of a target -/

/-- The imports of registered nodes, node by node in the order of a list. -/
def importsIn (entries : List (Text × Node Text)) : List (Text × Text) :=
  entries.flatMap fun (source, node) => node.imports.map (source, ·)

theorem imports_eq (graph : Graph Text) : graph.imports = importsIn graph.sorted := rfl

theorem sorted_perm (graph : Graph Text) : graph.sorted.Perm graph.nodes.entries :=
  List.mergeSort_perm _ _

theorem sorted_sorted (graph : Graph Text) : Text.Sorted Prod.fst graph.sorted :=
  Text.mergeSort_sorted Prod.fst graph.nodes.entries

/-- The registry in the order of its keys does not depend on the order it was filled in. -/
theorem sorted_eq_of_perm {left right : Graph Text}
    (same : left.nodes.entries.Perm right.nodes.entries) : left.sorted = right.sorted := by
  have moved : left.sorted.Perm right.sorted :=
    (left.sorted_perm.trans same).trans right.sorted_perm.symm
  apply Text.eq_of_perm_of_sorted Prod.fst _ moved left.sorted_sorted right.sorted_sorted
  rintro ⟨key, node⟩ inLeft ⟨_, other⟩ inRight rfl
  have here := right.sorted_perm.mem_iff.1 (moved.mem_iff.1 inLeft)
  have there := right.sorted_perm.mem_iff.1 inRight
  rw [Table.value_unique here there]

/-- Every node is a source of a target once for each of its imports of it. -/
theorem sourcesOf_importsIn (entries : List (Text × Node Text)) (target : Text) :
    sourcesOf (importsIn entries) target =
      entries.flatMap fun (source, node) => List.replicate (node.imports.count target) source := by
  induction entries with
  | nil => rfl
  | cons entry rest ih =>
    obtain ⟨source, node⟩ := entry
    have own : sourcesOf (node.imports.map (source, ·)) target =
        List.replicate (node.imports.count target) source := by
      simp [sourcesOf, List.filter_map, Function.comp_def, List.count_eq_length_filter,
        List.map_const']
    have split : sourcesOf (importsIn ((source, node) :: rest)) target =
        sourcesOf (node.imports.map (source, ·)) target ++ sourcesOf (importsIn rest) target := by
      simp [sourcesOf, importsIn]
    rw [split, own, ih, List.flatMap_cons]

/-- A registered node is a source of a target as often as it imports it. -/
theorem count_sourcesOf (graph : Graph Text) {a b : Text} {source : Node Text}
    (found : graph.nodes.get? a = some source) :
    (sourcesOf graph.imports b).count a = source.imports.count b := by
  have apart : (graph.nodes.entries.map Prod.fst).Nodup := graph.nodes.keys_nodup
  have inside := Table.get?_eq_some_iff.1 found
  rw [imports_eq, sourcesOf_importsIn, (graph.sorted_perm.flatMap_right _).count_eq]
  generalize graph.nodes.entries = entries at apart inside
  induction entries with
  | nil => simp at inside
  | cons entry rest ih =>
    obtain ⟨key, node⟩ := entry
    simp only [List.map_cons, List.nodup_cons] at apart
    rw [List.flatMap_cons, List.count_append, List.count_replicate]
    rcases List.mem_cons.1 inside with here | later
    · cases here
      have none : (rest.flatMap fun (source, node) =>
          List.replicate (node.imports.count b) source).count a = 0 := by
        rw [List.count_eq_zero]
        intro again
        obtain ⟨other, inRest, listed⟩ := List.mem_flatMap.1 again
        have same := List.eq_of_mem_replicate listed
        exact apart.1 (same ▸ List.mem_map_of_mem inRest)
      simp [none]
    · have other : key ≠ a := fun same => apart.1 (same ▸ List.mem_map_of_mem later)
      simp [other, ih apart.2 later]

theorem sourcesOf_sorted (graph : Graph Text) (b : Text) :
    Text.Sorted id (sourcesOf graph.imports b) := by
  rw [imports_eq, sourcesOf_importsIn]
  unfold Text.Sorted
  rw [List.pairwise_flatMap]
  constructor
  · intro entry _
    rw [List.pairwise_replicate]
    exact .inr (Text.le_refl _)
  · apply graph.sorted_sorted.imp
    intro left right before x inLeft y inRight
    rw [List.eq_of_mem_replicate inLeft, List.eq_of_mem_replicate inRight]
    exact before

theorem contains_of_mem_sourcesOf (graph : Graph Text) {a b : Text}
    (listed : a ∈ sourcesOf graph.imports b) : graph.nodes.contains a := by
  rw [imports_eq, sourcesOf_importsIn] at listed
  obtain ⟨entry, inside, same⟩ := List.mem_flatMap.1 listed
  rw [List.eq_of_mem_replicate same]
  exact Table.contains_of_mem (graph.sorted_perm.mem_iff.1 inside)

/-! ## One import after the other -/

/-- The registry in which the source of one more import is noted at its target, if the target is
registered. -/
def noteImporter (nodes : Table Text (Node Text)) (edge : Text × Text) : Table Text (Node Text) :=
  match nodes.get? edge.2 with
  | some node => nodes.insert edge.2 { node with importers := node.importers ++ [edge.1] }
  | none => nodes

theorem sourcesOf_append (imports : List (Text × Text)) (edge : Text × Text) (target : Text) :
    sourcesOf (imports ++ [edge]) target =
      sourcesOf imports target ++ if edge.2 == target then [edge.1] else [] := by
  by_cases same : edge.2 = target <;> simp [sourcesOf, same]

/-- One more import changes the importers of its target only. -/
theorem noteImporter_withImportersFrom (imports : List (Text × Text)) (graph : Graph Text)
    (edge : Text × Text) :
    noteImporter (withImportersFrom imports graph).nodes edge =
      (withImportersFrom (imports ++ [edge]) graph).nodes := by
  have looked : (withImportersFrom imports graph).nodes.get? edge.2 =
      (graph.nodes.get? edge.2).map fun node =>
        { node with importers := sourcesOf imports edge.2 } :=
    Table.get?_mapEntries _ _ _
  cases found : graph.nodes.get? edge.2 with
  | none =>
    rw [found] at looked
    simp only [noteImporter, looked, Option.map_none]
    apply Table.eq_of_entries
    apply List.map_congr_left
    intro entry inside
    have other : edge.2 ≠ entry.1 := by
      intro same
      have held := Table.contains_of_mem inside
      rw [← same, Table.contains, found] at held
      simp at held
    simp [sourcesOf_append, other]
  | some node =>
    rw [found] at looked
    simp only [noteImporter, looked, Option.map_some]
    rw [Table.insert_of_contains _ _ (by simp [Table.contains, looked])]
    apply Table.eq_of_entries
    simp only [withImportersFrom, Table.entries_mapEntries, List.map_map]
    apply List.map_congr_left
    intro entry inside
    by_cases same : entry.1 = edge.2
    · have own : entry.2 = node := by
        apply Table.value_unique inside
        rw [same]
        exact Table.get?_eq_some_iff.1 found
      simp [sourcesOf_append, same, own]
    · simp [sourcesOf_append, same, Ne.symm same]

/-- Noting imports one after the other, from no importers at all, is giving every node the
sources of its imports at once. -/
theorem foldl_noteImporter (imports : List (Text × Text)) (graph : Graph Text) :
    imports.foldl noteImporter (graph.nodes.map Node.withoutImporters) =
      (withImportersFrom imports graph).nodes := by
  induction imports using List.reverseRecOn with
  | nil => rfl
  | append_singleton imports edge ih =>
    rw [List.foldl_append, ih]
    exact noteImporter_withImportersFrom imports graph edge

/-! ## Edges -/

/-- The edges that the importers of the nodes tell: from each importer to the node. -/
def toldEdges (graph : Graph Text) : List (Text × Text) :=
  graph.nodes.entries.flatMap fun (target, node) => node.importers.map (·, target)

theorem importsIn_withImporters (graph : Graph Text) :
    graph.withImporters.imports = graph.imports := by
  have moved : graph.withImporters.sorted = graph.sorted.map fun entry =>
      (entry.1, { entry.2 with importers := sourcesOf graph.imports entry.1 }) := by
    symm
    apply List.map_mergeSort
    intro a _ b _
    rfl
  rw [imports_eq, moved, importsIn, List.flatMap_map]
  rfl

theorem edges_withImporters (graph : Graph Text) : graph.withImporters.edges = graph.edges := by
  rw [edges, importsIn_withImporters]
  simp [edges, withImporters, withImportersFrom, Table.contains_mapEntries]

theorem dangling_withImporters (graph : Graph Text) :
    graph.withImporters.dangling = graph.dangling := by
  rw [dangling, importsIn_withImporters]
  simp [dangling, withImporters, withImportersFrom, Table.contains_mapEntries]

/-- The importers of all nodes tell the edges. -/
theorem toldEdges_perm (graph : Graph Text) :
    graph.withImporters.toldEdges.Perm graph.edges := by
  have told : graph.withImporters.toldEdges =
      graph.nodes.keys.flatMap fun key => graph.imports.filter fun edge => edge.2 == key := by
    simp only [toldEdges, withImporters, withImportersFrom, Table.entries_mapEntries, Table.keys,
      List.flatMap_map]
    congr 1
    funext entry
    rw [sourcesOf, List.map_map]
    conv_rhs => rw [← List.map_id (graph.imports.filter _)]
    apply List.map_congr_left
    intro edge kept
    have same : edge.2 = entry.1 := by simpa using (List.mem_filter.1 kept).2
    simp [← same]
  have held : graph.edges = graph.imports.filter fun edge => graph.nodes.keys.contains edge.2 := by
    apply List.filter_congr
    intro edge _
    rw [Bool.eq_iff_iff, Table.contains_iff, List.contains_iff_mem]
  rw [told, held]
  exact Text.flatMap_filter_perm Prod.snd graph.imports graph.nodes.keys_nodup

/-- Edges and dangling imports are all imports, each occurrence once. -/
theorem edges_append_dangling_perm (graph : Graph Text) :
    (graph.edges ++ graph.dangling).Perm (importsIn graph.nodes.entries) :=
  (List.filter_append_perm _ graph.imports).trans (graph.sorted_perm.flatMap_right _)

/-! ## The importers of a registry -/

/-- `after` is `before` with the importers of its nodes read off the imports. -/
structure ReadsBack (before after : Graph Text) : Prop where
  /-- A node has a file among its importers as often as this file imports it. -/
  counted : ∀ a b source target, before.nodes.get? a = some source →
    after.nodes.get? b = some target → target.importers.count a = source.imports.count b
  ordered : ∀ b target, after.nodes.get? b = some target → Text.Sorted id target.importers
  registered : ∀ b target, after.nodes.get? b = some target →
    ∀ a ∈ target.importers, before.nodes.contains a
  /-- Nothing but importers changes in a node, and no key comes, goes or moves. -/
  kept : after.nodes.map Node.withoutImporters = before.nodes.map Node.withoutImporters
  around : after.root = before.root ∧ after.files = before.files ∧ after.stats = before.stats

theorem keys_withImporters (graph : Graph Text) :
    graph.withImporters.nodes.keys = graph.nodes.keys := by
  simp [Table.keys, withImporters, withImportersFrom]

theorem get?_withImporters (graph : Graph Text) (key : Text) :
    graph.withImporters.nodes.get? key = (graph.nodes.get? key).map fun node =>
      { node with importers := sourcesOf graph.imports key } :=
  Table.get?_mapEntries _ _ _

theorem readsBack_withImporters (graph : Graph Text) : ReadsBack graph graph.withImporters := by
  have sources : ∀ b target, graph.withImporters.nodes.get? b = some target →
      target.importers = sourcesOf graph.imports b := by
    intro b target found
    rw [get?_withImporters, Option.map_eq_some_iff] at found
    obtain ⟨node, _, rfl⟩ := found
    rfl
  refine ⟨?_, ?_, ?_, ?_, rfl, rfl, rfl⟩
  · intro a b source target importing found
    rw [sources b target found]
    exact count_sourcesOf graph importing
  · intro b target found
    rw [sources b target found]
    exact sourcesOf_sorted graph b
  · intro b target found a listed
    rw [sources b target found] at listed
    exact contains_of_mem_sourcesOf graph listed
  · apply Table.eq_of_entries
    simp [Table.map, withImporters, withImportersFrom, Node.withoutImporters]

/-- The order in which files were registered does not show in their importers. -/
theorem get?_withImporters_of_perm {graph other : Graph Text}
    (same : other.nodes.entries.Perm graph.nodes.entries) (key : Text) :
    other.withImporters.nodes.get? key = graph.withImporters.nodes.get? key := by
  have imports : other.imports = graph.imports := by
    rw [imports_eq, imports_eq, sorted_eq_of_perm same]
  rw [get?_withImporters, get?_withImporters, Table.get?_eq_of_perm same, imports]

/-- Whatever is registered, its importers are its imports read backwards: they count the same,
they are what noting one import after the other comes to, they do not depend on the order of
the registry, they tell exactly the edges, and edges and dangling imports are all imports. -/
theorem importers_reverse_imports (graph : Graph Text) :
    ReadsBack graph graph.withImporters ∧
    graph.withImporters.nodes =
      graph.imports.foldl noteImporter (graph.nodes.map Node.withoutImporters) ∧
    (∀ other : Graph Text, other.nodes.entries.Perm graph.nodes.entries →
      ∀ key, other.withImporters.nodes.get? key = graph.withImporters.nodes.get? key) ∧
    graph.withImporters.toldEdges.Perm graph.withImporters.edges ∧
    (graph.withImporters.edges ++ graph.withImporters.dangling).Perm
      (importsIn graph.nodes.entries) ∧
    (∀ edge ∈ graph.withImporters.edges, graph.nodes.contains edge.2) ∧
    (∀ edge ∈ graph.withImporters.dangling, ¬ graph.nodes.contains edge.2) := by
  rw [edges_withImporters, dangling_withImporters]
  refine ⟨graph.readsBack_withImporters, ?_, ?_, graph.toldEdges_perm,
    graph.edges_append_dangling_perm, ?_, ?_⟩
  · exact (foldl_noteImporter graph.imports graph).symm
  · intro other same key
    exact get?_withImporters_of_perm same key
  · intro edge inside
    exact (List.mem_filter.1 inside).2
  · intro edge inside
    simpa using (List.mem_filter.1 inside).2

/-- Three files; one imports itself, another file twice and a file that is not there, and has an
importer that is none. -/
def threeFiles : Graph Text where
  root := { id := rootId, name := "app", path := "/work/app", kind := Node.rootKind }
  nodes := Table.ofList
    [("c.js", { id := "c.js", name := "c", path := "c.js", kind := "util" }),
     ("b.js", { id := "b.js", name := "b", path := "b.js", kind := "util", imports := ["c.js"] }),
     ("a.js", { id := "a.js", name := "a", path := "a.js", kind := "util"
                imports := ["c.js", "a.js", "x.js", "c.js"], importers := ["y.js"] })]

theorem threeFiles_importers :
    ∃ target, threeFiles.withImporters.nodes.get? "c.js" = some target ∧
      target.importers.count ("a.js" : Text) = 2 ∧ target.importers.count ("b.js" : Text) = 1 := by
  have reverse := (importers_reverse_imports threeFiles).1
  exact ⟨_, rfl, reverse.counted "a.js" "c.js" _ _ rfl rfl, reverse.counted "b.js" "c.js" _ _ rfl rfl⟩

end Graph
end ModuleAtlas
