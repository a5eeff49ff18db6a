import ModuleAtlas.Graph.Tree
import ModuleAtlas.Proofs.Graph.Forest
import ModuleAtlas.Proofs.Graph.Importers
/-!
Slashes instead of backslashes. Texts without backslashes stay, and texts without slashes are told
apart afterwards (`withSlashes_injective`). In a graph with slashes the registry is made of the
old one's nodes, and everything in the tree stands where it stood (`placedAll_withSlashes`).
-/
namespace ModuleAtlas

namespace Path

theorem withSlashes_append (p q : Text) :
    withSlashes (p ++ q) = withSlashes p ++ withSlashes q := List.map_append

theorem no_backslash_in_withSlashes (p : Text) : .scalar '\\' ∉ withSlashes p := by
  intro inside
  obtain ⟨c, _, changed⟩ := List.mem_map.1 inside
  split at changed
  · simp at changed
  · rename_i other
    exact other changed

theorem withSlashes_eq_self {p : Text} (none : .scalar '\\' ∉ p) : withSlashes p = p := by
  rw [withSlashes, Text.replaceChar]
  conv_rhs => rw [← List.map_id p]
  apply List.map_congr_left
  intro c inside
  have other : c ≠ '\\' := by
    rintro rfl
    exact none inside
  simp [other]

/-- Texts without slashes are told apart by what becomes of them. -/
theorem withSlashes_injective {p q : Text} (left : .scalar '/' ∉ p) (right : .scalar '/' ∉ q)
    (same : withSlashes p = withSlashes q) : p = q := by
  induction p generalizing q with
  | nil =>
    cases q with
    | nil => rfl
    | cons d q => simp [withSlashes, Text.replaceChar] at same
  | cons c p ih =>
    cases q with
    | nil => simp [withSlashes, Text.replaceChar] at same
    | cons d q =>
      rw [List.mem_cons, not_or] at left right
      simp only [withSlashes, Text.replaceChar, List.map_cons, List.cons.injEq] at same
      have first : c = d := by
        have heads := same.1
        split at heads
        · rename_i here
          split at heads
          · rename_i there
            rw [here, there]
          · exact absurd heads right.1
        · split at heads
          · exact absurd heads.symm left.1
          · exact heads
      rw [first, ih left.2 right.2 same.2]

/-- No two of the paths become one when backslashes become slashes. -/
def StayApart (paths : List Text) : Prop :=
  ∀ p ∈ paths, ∀ q ∈ paths, withSlashes p = withSlashes q → p = q

end Path

namespace Node

theorem withSlashesAll_eq_map (nodes : List (Node Text)) :
    withSlashesAll nodes = nodes.map withSlashes := by
  induction nodes with
  | nil => rfl
  | cons node nodes ih => rw [withSlashesAll, ih, List.map_cons]

section
variable (node : Node Text)

@[simp] theorem id_withSlashes : node.withSlashes.id = Path.withSlashes node.id := by
  cases node
  rfl

@[simp] theorem name_withSlashes : node.withSlashes.name = node.name := by
  cases node
  rfl

@[simp] theorem path_withSlashes : node.withSlashes.path = Path.withSlashes node.path := by
  cases node
  rfl

@[simp] theorem kind_withSlashes : node.withSlashes.kind = node.kind := by
  cases node
  rfl

@[simp] theorem several_withSlashes : node.withSlashes.several = node.several := by
  cases node
  rfl

@[simp] theorem imports_withSlashes :
    node.withSlashes.imports = node.imports.map Path.withSlashes := by
  cases node
  rfl

@[simp] theorem importers_withSlashes :
    node.withSlashes.importers = node.importers.map Path.withSlashes := by
  cases node
  rfl

@[simp] theorem children_withSlashes :
    node.withSlashes.children = node.children.map withSlashes := by
  rw [← withSlashesAll_eq_map]
  cases node
  rfl

end

mutual

/-- Everything in the tree of a node stands where it stood. -/
theorem placed_withSlashes (parent : Text) : (node : Node Text) →
    placed (Path.withSlashes parent) node.withSlashes =
      (placed parent node).map fun place => (Path.withSlashes place.1, place.2.withSlashes)
  | ⟨_, _, path, _, _, _, _, children⟩ =>
    congrArg _ (placedAll_withSlashes path children)

theorem placedAll_withSlashes (parent : Text) : (nodes : List (Node Text)) →
    placedAll (Path.withSlashes parent) (withSlashesAll nodes) =
      (placedAll parent nodes).map fun place => (Path.withSlashes place.1, place.2.withSlashes)
  | [] => rfl
  | node :: nodes => by
    rw [withSlashesAll, placedAll, placedAll, List.map_append, placed_withSlashes parent node,
      placedAll_withSlashes parent nodes]

end

end Node

namespace Graph

/-- The nodes of a registry with slashes, in the order of the keys they had. -/
def slashedEntries (graph : Graph Text) : List (Text × Node Text) :=
  graph.nodes.entries.map fun entry => (Path.withSlashes entry.1, entry.2.withSlashes)

theorem nodes_withSlashes (graph : Graph Text) :
    graph.withSlashes.nodes = Table.ofList graph.slashedEntries := by
  simp only [withSlashes, Table.mapKeys, Table.map, Table.entries_mapEntries, List.map_map]
  rfl

variable {raw : Graph Text}

theorem keys_slashedEntries :
    raw.slashedEntries.map Prod.fst = raw.nodes.keys.map Path.withSlashes := by
  simp [slashedEntries, Table.keys]

/-- Keys that stay apart keep their nodes and their places. -/
theorem entries_withSlashes (apart : Path.StayApart raw.nodes.keys) :
    raw.withSlashes.nodes.entries = raw.slashedEntries := by
  rw [nodes_withSlashes]
  apply Table.entries_ofList
  rw [keys_slashedEntries]
  exact raw.nodes.keys_nodup.map_on apart

/-- A registry loses no node exactly if its keys stay apart. -/
theorem size_withSlashes_iff :
    raw.withSlashes.nodes.size = raw.nodes.size ↔ Path.StayApart raw.nodes.keys := by
  constructor
  · intro same
    have whole : (raw.slashedEntries.map Prod.fst).Nodup := by
      apply Table.nodup_of_size_ofList
      rw [← nodes_withSlashes, same, slashedEntries, List.length_map, Table.size]
    rw [keys_slashedEntries] at whole
    exact fun p inLeft q inRight meet => List.inj_on_of_nodup_map whole inLeft inRight meet
  · intro apart
    rw [Table.size, entries_withSlashes apart, slashedEntries, List.length_map, Table.size]

end Graph
end ModuleAtlas
