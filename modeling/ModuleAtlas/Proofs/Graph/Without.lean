import ModuleAtlas.Graph.Tree
import ModuleAtlas.Proofs.Graph.Importers
import ModuleAtlas.Proofs.Graph.Stats
/-!
Graphs without some of their files. Leaving files out of the registry leaves their imports out of what
is read backwards from it (`sourcesOf_restrict`). With the counts and the tree of what is left, that
is the graph without these files (`eq_without`).
-/
namespace ModuleAtlas

namespace Table
variable {κ β : Type} [BEq κ]

/-- The entries whose keys are kept. -/
def filter (kept : κ → Bool) (table : Table κ β) : Table κ β :=
  ⟨table.entries.filter fun entry => kept entry.1,
    table.distinct.sublist (List.filter_sublist.map Prod.fst)⟩

@[simp] theorem entries_filter (kept : κ → Bool) (table : Table κ β) :
    (table.filter kept).entries = table.entries.filter fun entry => kept entry.1 := rfl

end Table

/-- The node with only those importers that are kept. -/
def Node.restrict (kept : Text → Bool) (node : Node Text) : Node Text :=
  { node with importers := node.importers.filter kept }

namespace Graph

/-- The graph with only those files registered that are kept, counted afresh. -/
def restrict (kept : Text → Bool) (graph : Graph Text) : Graph Text :=
  { graph with
    nodes := graph.nodes.filter kept
    stats := Stats.recount (graph.nodes.filter kept).values }

/-- The graph with only those files in the registry and among the importers that are kept, counted
afresh. -/
def limited (kept : Text → Bool) (graph : Graph Text) : Graph Text :=
  let left := graph.restrict kept
  { left with nodes := left.nodes.map (Node.restrict kept) }

/-- The graph without some files in the registry and among the importers of the others. The counts
and the tree are those of the registry that is left; the list of files stays. -/
def without (out : List Text) (graph : Graph Text) : Graph Text :=
  (graph.limited fun id => !out.contains id).withTree

variable {kept : Text → Bool} {raw : Graph Text}

/-! ## Importers -/

theorem sorted_restrict : (raw.restrict kept).sorted = raw.sorted.filter fun entry => kept entry.1 := by
  have moved : (raw.restrict kept).sorted.Perm (raw.sorted.filter fun entry => kept entry.1) :=
    (sorted_perm _).trans (raw.sorted_perm.filter _).symm
  refine Text.eq_of_perm_of_sorted Prod.fst ?_ moved (sorted_sorted _)
    (raw.sorted_sorted.sublist List.filter_sublist)
  rintro ⟨key, node⟩ inLeft ⟨_, other⟩ inRight rfl
  have here := raw.sorted_perm.mem_iff.1 (List.mem_filter.1 (moved.mem_iff.1 inLeft)).1
  have there := raw.sorted_perm.mem_iff.1 (List.mem_filter.1 inRight).1
  rw [Table.value_unique here there]

theorem importsIn_filter (entries : List (Text × Node Text)) :
    importsIn (entries.filter fun entry => kept entry.1) =
      (importsIn entries).filter fun edge => kept edge.1 := by
  induction entries with
  | nil => rfl
  | cons entry rest ih =>
    obtain ⟨source, node⟩ := entry
    have split : importsIn ((source, node) :: rest) =
        node.imports.map (source, ·) ++ importsIn rest := rfl
    rw [split, List.filter_append, ← ih, List.filter_map]
    cases stays : kept source
    · simp [stays, Function.comp_def]
    · simp [stays, Function.comp_def, importsIn]

/-- The sources that are kept are those of the imports of the files that are kept. -/
theorem sourcesOf_restrict (target : Text) :
    sourcesOf (raw.restrict kept).imports target = (sourcesOf raw.imports target).filter kept := by
  rw [imports_eq, sorted_restrict, importsIn_filter, ← imports_eq, sourcesOf, sourcesOf,
    List.filter_map, List.filter_filter, List.filter_filter]
  congr 2
  funext edge
  exact Bool.and_comm _ _

/-! ## The graph that is left -/

theorem forest_congr {left right : Graph Text} (same : left.nodes = right.nodes) :
    left.forest = right.forest := by
  obtain ⟨_, nodes, _, _⟩ := left
  obtain ⟨_, others, _, _⟩ := right
  obtain rfl : nodes = others := same
  rfl

theorem stats_limited (kept : Text → Bool) (graph : Graph Text) :
    (graph.limited kept).stats = Stats.recount (graph.limited kept).nodes.values := by
  have values : (graph.limited kept).nodes.values =
      (graph.nodes.filter kept).values.map (Node.restrict kept) := by
    simp [limited, restrict, Table.values, Table.map]
  rw [values, Stats.recount_map (f := Node.restrict kept) fun _ => ⟨rfl, rfl⟩]
  rfl

/-- A graph is another one without some files if its registry is, and if its counts and its tree are
those of this registry. -/
theorem eq_without {graph left : Graph Text} (out : List Text)
    (nodes : left.nodes = (graph.limited fun id => !out.contains id).nodes)
    (root : left.root = { graph.root with children := left.forest })
    (files : left.files = graph.files) (stats : left.stats = Stats.recount left.nodes.values) :
    left = graph.without out := by
  rw [nodes, ← stats_limited] at stats
  rw [forest_congr nodes] at root
  obtain ⟨_, _, _, _⟩ := left
  rw [without, withTree, Graph.mk.injEq]
  exact ⟨root, nodes, files, stats⟩

end Graph
end ModuleAtlas
