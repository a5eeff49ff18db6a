import ModuleAtlas.Proofs.Graph.Directories
/-!
The tree of a graph. Every node of it stands somewhere: below the root, or below the directory of
a path (`placed`). What stands in a relative directory is its files and then its directories
(`contents_eq`), so an induction over directories, from the deepest ones up, tells where everything
stands: each file once in the directory of its path, each directory once in its own.
-/
namespace ModuleAtlas

namespace Node

mutual

/-- The node and all nodes below it, each with the path of what it stands in. -/
def placed (parent : Text) : Node Text → List (Text × Node Text)
  | ⟨id, name, path, kind, several, imports, importers, children⟩ =>
    (parent, ⟨id, name, path, kind, several, imports, importers, children⟩) ::
      placedAll path children
termination_by structural node => node

/-- The nodes and all nodes below them. -/
def placedAll (parent : Text) : List (Node Text) → List (Text × Node Text)
  | [] => []
  | node :: nodes => placed parent node ++ placedAll parent nodes
termination_by structural nodes => nodes

end

theorem placed_eq (parent : Text) (node : Node Text) :
    placed parent node = (parent, node) :: placedAll node.path node.children := by
  cases node
  rfl

theorem placedAll_eq_flatMap (parent : Text) (nodes : List (Node Text)) :
    placedAll parent nodes = nodes.flatMap (placed parent) := by
  induction nodes with
  | nil => rfl
  | cons node nodes ih => rw [placedAll, ih, List.flatMap_cons]

/-- Nodes without children are all there is. -/
theorem placedAll_of_childless {parent : Text} {nodes : List (Node Text)}
    (childless : ∀ node ∈ nodes, node.children = []) :
    placedAll parent nodes = nodes.map (parent, ·) := by
  rw [placedAll_eq_flatMap]
  induction nodes with
  | nil => rfl
  | cons node nodes ih =>
    rw [List.flatMap_cons, List.map_cons, placed_eq, childless node (by simp),
      ih fun node inside => childless node (by simp [inside])]
    rfl

end Node

namespace Graph
open ModuleAtlas.Path

/-! ## What stands in a directory -/

theorem directoriesIn_eq_nil {directories : List Text} {d : Text} (relative : ¬ isAbsolute d)
    (named : [] ∉ directories) (deepest : rank directories d = 0) :
    directoriesIn directories d = [] := by
  apply List.eq_nil_iff_forall_not_mem.2
  intro e inside
  have fewer := rank_lt relative named inside
  omega

/-- There are enough levels for a directory if there are as many as directories with longer
paths. -/
theorem childrenOf_eq_of_rank {filesIn : Text → List (Node Text)} {directories : List Text}
    (named : [] ∉ directories) {n m : Nat} {d : Text} (relative : ¬ isAbsolute d)
    (left : rank directories d ≤ n) (right : rank directories d ≤ m) :
    childrenOf filesIn (directoriesIn directories) n d =
      childrenOf filesIn (directoriesIn directories) m d := by
  induction n generalizing m d with
  | zero =>
    have none := directoriesIn_eq_nil relative named (Nat.le_zero.1 left)
    cases m <;> simp [childrenOf, none]
  | succ n ih =>
    cases m with
    | zero =>
      have none := directoriesIn_eq_nil relative named (Nat.le_zero.1 right)
      simp [childrenOf, none]
    | succ m =>
      simp only [childrenOf]
      congr 1
      apply List.map_congr_left
      intro e inside
      have fewer := rank_lt relative named inside
      have below : ¬ isAbsolute e := by
        rw [← isAbsolute_dirname, (mem_directoriesIn.1 inside).2]
        exact relative
      exact congrArg _ (ih below (by omega) (by omega))

section
variable (graph : Graph Text)

/-- The directories that stand in a directory. -/
def subdirectories (d : Text) : List Text := directoriesIn graph.directories d

/-- What stands in a directory. -/
def contents (d : Text) : List (Node Text) :=
  childrenOf graph.filesIn (directoriesIn graph.directories) graph.directories.length d

/-- The node of a directory with all that stands in it. -/
def directoryAt (d : Text) : Node Text := directoryNode d (graph.contents d)

variable {graph}

theorem mem_subdirectories {d e : Text} :
    e ∈ graph.subdirectories d ↔ e ∈ graph.directories ∧ dirname e = d := mem_directoriesIn

theorem relative_of_mem_subdirectories {d e : Text} (relative : ¬ isAbsolute d)
    (inside : e ∈ graph.subdirectories d) : ¬ isAbsolute e := by
  rw [← isAbsolute_dirname, (mem_subdirectories.1 inside).2]
  exact relative

/-- Files stand first in a directory, and then its directories with what stands in them. -/
theorem contents_eq {d : Text} (relative : ¬ isAbsolute d) :
    graph.contents d = graph.filesIn d ++ (graph.subdirectories d).map graph.directoryAt := by
  have enough : ∀ e, rank graph.directories e ≤ graph.directories.length := by
    intro e
    exact List.countP_le_length
  have one : graph.contents d = childrenOf graph.filesIn (directoriesIn graph.directories)
      (graph.directories.length + 1) d :=
    childrenOf_eq_of_rank nil_not_mem_directories relative (enough d)
      (Nat.le_succ_of_le (enough d))
  rw [one]
  rfl

/-- What holds of a directory whenever it holds of the directories in it holds of all. -/
theorem directory_induction (graph : Graph Text) {motive : (d : Text) → ¬ isAbsolute d → Prop}
    (step : ∀ d relative, (∀ e, (inside : e ∈ graph.subdirectories d) →
      motive e (relative_of_mem_subdirectories relative inside)) → motive d relative)
    (d : Text) (relative : ¬ isAbsolute d) : motive d relative := by
  apply step d relative
  intro e inside
  have fewer := rank_lt relative nil_not_mem_directories inside
  exact directory_induction graph step e (relative_of_mem_subdirectories relative inside)
termination_by rank graph.directories d

theorem mem_filesIn {d : Text} {node : Node Text} :
    node ∈ graph.filesIn d ↔ node ∈ graph.nodes.values ∧ dirname node.path = d := by
  rw [filesIn, List.mem_mergeSort, List.mem_filter, beq_iff_eq]
  rfl

theorem filesIn_perm (d : Text) :
    (graph.filesIn d).Perm (graph.nodes.values.filter fun node => dirname node.path == d) :=
  List.mergeSort_perm _ _

theorem filesIn_sorted (d : Text) : Text.Sorted Node.id (graph.filesIn d) :=
  Text.mergeSort_sorted Node.id _

end

/-! ## Where everything stands -/

section
variable (graph : Graph Text)

/-- The nodes below the root, each with the path of the directory it stands in; the root is the
empty directory. -/
def placed : List (Text × Node Text) := Node.placedAll [] graph.root.children

/-- What stands in a directory and below it, each with the path of the directory it stands in. -/
def placedBelow (d : Text) : List (Text × Node Text) := Node.placedAll d (graph.contents d)

/-- The files among nodes with places: those without children. -/
def filesAmong (placed : List (Text × Node Text)) : List (Text × Node Text) :=
  placed.filter fun place => place.2.children.isEmpty

/-- The directories among nodes with places: those with children. -/
def directoriesAmong (placed : List (Text × Node Text)) : List (Text × Node Text) :=
  placed.filter fun place => !place.2.children.isEmpty

/-- The paths of the directories below a directory. -/
def pathsBelow (d : Text) : List Text :=
  (directoriesAmong (graph.placedBelow d)).map fun place => place.2.path

/-- No registered node has children. -/
def IsFlat : Prop := ∀ node ∈ graph.nodes.values, node.children = []

variable {graph}

theorem childless_of_mem_filesIn (flat : graph.IsFlat) {d : Text} {node : Node Text}
    (inside : node ∈ graph.filesIn d) : node.children = [] :=
  flat node (mem_filesIn.1 inside).1

theorem placed_directoryAt (d e : Text) :
    Node.placed d (graph.directoryAt e) = (d, graph.directoryAt e) :: graph.placedBelow e :=
  Node.placed_eq d _

theorem placedBelow_eq (flat : graph.IsFlat) {d : Text} (relative : ¬ isAbsolute d) :
    graph.placedBelow d = (graph.filesIn d).map (d, ·) ++
      (graph.subdirectories d).flatMap fun e =>
        (d, graph.directoryAt e) :: graph.placedBelow e := by
  have files : Node.placedAll d (graph.filesIn d) = (graph.filesIn d).map (d, ·) :=
    Node.placedAll_of_childless fun node inside => childless_of_mem_filesIn flat inside
  rw [placedBelow, contents_eq relative, Node.placedAll_eq_flatMap, List.flatMap_append,
    ← Node.placedAll_eq_flatMap, files, List.flatMap_map]
  simp only [placed_directoryAt]

/-- What stands below a directory is a file of the directory it stands in, or a directory of it. -/
theorem mem_placedBelow (flat : graph.IsFlat) {d : Text} (relative : ¬ isAbsolute d) :
    ∀ place ∈ graph.placedBelow d, ¬ isAbsolute place.1 ∧
      (place.2 ∈ graph.filesIn place.1 ∨
        ∃ e ∈ graph.subdirectories place.1, place.2 = graph.directoryAt e) := by
  induction d, relative using directory_induction graph with
  | step d relative ih =>
    intro place inside
    rw [placedBelow_eq flat relative] at inside
    rcases List.mem_append.1 inside with file | further
    · obtain ⟨node, listed, rfl⟩ := List.mem_map.1 file
      exact ⟨relative, .inl listed⟩
    · obtain ⟨e, listed, below⟩ := List.mem_flatMap.1 further
      rcases List.mem_cons.1 below with rfl | deeper
      · exact ⟨relative, .inr ⟨e, listed, rfl⟩⟩
      · exact ih e listed place deeper

/-- A directory of the graph is not empty. -/
theorem contents_ne_nil {e : Text} (relative : ¬ isAbsolute e) (listed : e ∈ graph.directories) :
    graph.contents e ≠ [] := by
  obtain ⟨node, registered, some, n, reached⟩ := (mem_directories_iff relative).1 listed
  rw [contents_eq relative]
  cases n with
  | zero =>
    have file : node ∈ graph.filesIn e := mem_filesIn.2 ⟨registered, reached⟩
    exact List.append_ne_nil_of_left_ne_nil (List.ne_nil_of_mem file) _
  | succ n =>
    -- The step before the last one on the way up is a directory that stands in this one.
    have last : dirname (dirname^[n + 1] node.path) = e := by
      rw [← Function.iterate_succ_apply' dirname, reached]
    have below : ¬ isAbsolute (dirname^[n + 1] node.path) := by
      rw [← isAbsolute_dirname, last]
      exact relative
    have named : dirname^[n + 1] node.path ≠ [] := by
      intro nothing
      rw [nothing, dirname_nil] at last
      exact some last.symm
    have inside : dirname^[n + 1] node.path ∈ graph.subdirectories e :=
      mem_subdirectories.2 ⟨(mem_directories_iff below).2 ⟨node, registered, named, n, rfl⟩, last⟩
    exact List.append_ne_nil_of_right_ne_nil _ (List.ne_nil_of_mem (List.mem_map_of_mem inside))

theorem children_directoryAt (e : Text) : (graph.directoryAt e).children = graph.contents e := rfl

theorem path_directoryAt (e : Text) : (graph.directoryAt e).path = e := rfl

/-- The directories below a directory are those in it, each with the directories below it. -/
theorem pathsBelow_eq (flat : graph.IsFlat) {d : Text} (relative : ¬ isAbsolute d) :
    graph.pathsBelow d =
      (graph.subdirectories d).flatMap fun e => e :: graph.pathsBelow e := by
  have noFile : directoriesAmong ((graph.filesIn d).map (d, ·)) = [] := by
    apply List.filter_eq_nil_iff.2
    intro place inside
    obtain ⟨node, listed, rfl⟩ := List.mem_map.1 inside
    simp [childless_of_mem_filesIn flat listed]
  rw [pathsBelow, placedBelow_eq flat relative, directoriesAmong, List.filter_append]
  rw [directoriesAmong] at noFile
  rw [noFile, List.nil_append, List.filter_flatMap, List.map_flatMap]
  apply List.flatMap_congr
  intro e listed
  have below := relative_of_mem_subdirectories relative listed
  have some := contents_ne_nil below (mem_subdirectories.1 listed).1
  rw [List.filter_cons_of_pos (by simp [children_directoryAt, some]), List.map_cons]
  rfl

/-- The files below a directory are its own files and those of the directories below it. -/
theorem filesAmong_placedBelow (flat : graph.IsFlat) {d : Text} (relative : ¬ isAbsolute d) :
    filesAmong (graph.placedBelow d) =
      (d :: graph.pathsBelow d).flatMap fun e => (graph.filesIn e).map (e, ·) := by
  induction d, relative using directory_induction graph with
  | step d relative ih =>
    have own : filesAmong ((graph.filesIn d).map (d, ·)) = (graph.filesIn d).map (d, ·) := by
      apply List.filter_eq_self.2
      intro place inside
      obtain ⟨node, listed, rfl⟩ := List.mem_map.1 inside
      simp [childless_of_mem_filesIn flat listed]
    rw [placedBelow_eq flat relative, filesAmong, List.filter_append]
    rw [filesAmong] at own
    rw [own, List.flatMap_cons, pathsBelow_eq flat relative, List.filter_flatMap,
      List.flatMap_assoc]
    congr 1
    apply List.flatMap_congr
    intro e listed
    have below := relative_of_mem_subdirectories relative listed
    have some := contents_ne_nil below (mem_subdirectories.1 listed).1
    have deeper := ih e listed
    rw [filesAmong] at deeper
    rw [List.filter_cons_of_neg (by simp [children_directoryAt, some]), deeper]

end

end Graph
end ModuleAtlas
