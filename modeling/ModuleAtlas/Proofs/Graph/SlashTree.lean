import ModuleAtlas.Proofs.Graph.Slash
import ModuleAtlas.Proofs.Graph.Tree
import ModuleAtlas.Proofs.Path.Place
/-!
When the tree of a graph outlasts slashes. A tree that was built before backslashes became slashes
is the tree of the new registry exactly if every file stays in its directory and files of one
directory keep their order (`settledTree_iff`).
-/
namespace ModuleAtlas

namespace Graph
open ModuleAtlas.Path

/-- Every registered node is a file under its id, which is its path: names with slashes between
them. -/
structure IsKeyed (graph : Graph Text) : Prop where
  own : ∀ entry ∈ graph.nodes.entries, entry.2.id = entry.1 ∧ entry.2.path = entry.1
  flat : graph.IsFlat
  named : ∀ key ∈ graph.nodes.keys, ∃ names, names ≠ [] ∧ AreNames names ∧ key = ofNames names

/-- A path stays in its directory when backslashes become slashes, and the directory stays. -/
def Stays (p : Text) : Prop :=
  .scalar '\\' ∉ dirname p ∧ dirname (Path.withSlashes p) = dirname p

/-- The paths of one directory keep their order when backslashes become slashes. -/
def KeepOrder (paths : List Text) : Prop :=
  ∀ p ∈ paths, ∀ q ∈ paths, dirname p = dirname q → Text.le p q →
    Text.le (Path.withSlashes p) (Path.withSlashes q)

section
variable {paths : List Text} (plain : ∀ p ∈ paths, .scalar '\\' ∉ p)
include plain

/-- A path without backslashes stays in its directory. -/
theorem stays_of_plain : ∀ p ∈ paths, Stays p := fun p known =>
  ⟨fun inside => plain p known ((dirname_opens p).subset inside), by
    rw [withSlashes_eq_self (plain p known)]⟩

theorem keepOrder_of_plain : KeepOrder paths := by
  intro p inLeft q inRight _ order
  rwa [withSlashes_eq_self (plain p inLeft), withSlashes_eq_self (plain q inRight)]

end

/-- If no directory on the way to a path has a backslash in its last segment, the directory of the
path has none at all. -/
theorem no_backslash_in_dirname {p : Text} (relative : ¬ isAbsolute p)
    (none : ∀ d, IsAncestor d p → .scalar '\\' ∉ basename d) : .scalar '\\' ∉ dirname p := by
  by_cases nothing : dirname p = []
  · simp [nothing]
  · have below : ¬ isAbsolute (dirname p) := by simpa using relative
    have own : .scalar '\\' ∉ basename (dirname p) := none _ ⟨nothing, 0, rfl⟩
    have shorter : (dirname p).length < p.length := by
      apply length_dirname relative
      rintro rfl
      exact nothing rfl
    have above : .scalar '\\' ∉ dirname (dirname p) := by
      apply no_backslash_in_dirname below
      rintro d ⟨some, n, reached⟩
      exact none d ⟨some, n + 1, reached⟩
    rcases dirname_cases below with ⟨_, whole⟩ | ⟨n, _, _, whole⟩
    · rwa [(dirname_of_no_slash whole).2] at own
    · rw [whole]
      simp [own, above]
termination_by p.length

section
variable {base : Graph Text}

/-- The node of a registered path. -/
theorem exists_node (keyed : base.IsKeyed) {p : Text} (known : p ∈ base.nodes.keys) :
    ∃ node ∈ base.nodes.values, node.id = p ∧ node.path = p := by
  obtain ⟨entry, held, rfl⟩ := List.mem_map.1 known
  exact ⟨entry.2, List.mem_map_of_mem held, keyed.own entry held⟩

theorem key_of_mem_values (keyed : base.IsKeyed) {node : Node Text}
    (registered : node ∈ base.nodes.values) : node.path ∈ base.nodes.keys ∧ node.id = node.path := by
  obtain ⟨entry, held, rfl⟩ := List.mem_map.1 registered
  obtain ⟨sameId, samePath⟩ := keyed.own entry held
  rw [samePath, sameId]
  exact ⟨List.mem_map_of_mem held, rfl⟩

theorem relative_of_mem_keys (keyed : base.IsKeyed) {p : Text} (known : p ∈ base.nodes.keys) :
    ¬ isAbsolute p := by
  obtain ⟨names, _, proper, rfl⟩ := keyed.named p known
  exact isAbsolute_ofNames proper.areSegments

/-- Paths that stay in their directories stay apart. -/
theorem stayApart_of_stays (keyed : base.IsKeyed) (stay : ∀ p ∈ base.nodes.keys, Stays p) :
    StayApart base.nodes.keys := by
  intro p inLeft q inRight meet
  have house : dirname p = dirname q := by
    rw [← (stay p inLeft).2, meet, (stay q inRight).2]
  obtain ⟨left, someLeft, properLeft, rfl⟩ := keyed.named p inLeft
  obtain ⟨right, someRight, properRight, rfl⟩ := keyed.named q inRight
  rw [← List.dropLast_append_getLast someLeft] at properLeft house meet ⊢
  rw [← List.dropLast_append_getLast someRight] at properRight house meet ⊢
  generalize left.dropLast = above, left.getLast someLeft = first at *
  generalize right.dropLast = other, right.getLast someRight = second at *
  rw [(dirname_ofNames properLeft.areSegments).1, (dirname_ofNames properRight.areSegments).1] at house
  obtain ⟨namesLeft, lastLeft⟩ := areNames_append.1 properLeft
  obtain ⟨namesRight, lastRight⟩ := areNames_append.1 properRight
  obtain rfl := ofNames_injective namesLeft.areSegments namesRight.areSegments house
  have slashes : Path.withSlashes first = Path.withSlashes second := by
    by_cases top : above = []
    · simpa [top, ofNames, Text.joinWith] using meet
    · rw [ofNames, ofNames, Text.joinWith_append_singleton top,
        Text.joinWith_append_singleton top, withSlashes_append, withSlashes_append] at meet
      have rest := List.append_cancel_left meet
      simpa [Path.withSlashes, Text.replaceChar] using rest
  rw [withSlashes_injective (lastLeft first (by simp)).2.1 (lastRight second (by simp)).2.1 slashes]

/-! ## From a tree that is settled -/

/-- The tree is that of the registry. -/
def IsTreeSettled (graph : Graph Text) : Prop := graph.withTree.root = graph.root

theorem isTreeSettled_iff {graph : Graph Text} :
    graph.IsTreeSettled ↔ graph.forest = graph.root.children := by
  constructor
  · intro settled
    exact congrArg Node.children settled
  · intro same
    rw [IsTreeSettled, withTree, same]
    obtain ⟨root, _, _, _⟩ := graph
    cases root
    rfl

/-- The graph with its tree, and then with slashes. -/
def slashedTree (base : Graph Text) : Graph Text := base.withTree.withSlashes

theorem nodes_slashedTree : base.slashedTree.nodes = base.withSlashes.nodes := rfl

theorem children_slashedTree :
    base.slashedTree.root.children = base.forest.map Node.withSlashes :=
  Node.withSlashesAll_eq_map _

theorem placed_slashedTree : base.slashedTree.placed =
    base.withTree.placed.map fun place => (Path.withSlashes place.1, place.2.withSlashes) :=
  Node.placedAll_withSlashes [] base.forest

theorem flat_slashedTree (flat : base.IsFlat) : base.slashedTree.IsFlat := by
  intro node registered
  obtain ⟨entry, held, rfl⟩ := List.mem_map.1 registered
  rw [nodes_slashedTree, nodes_withSlashes] at held
  obtain ⟨old, known, rfl⟩ := List.mem_map.1 (Table.mem_of_mem_ofList held)
  rw [Node.children_withSlashes, flat old.2 (List.mem_map_of_mem known)]
  rfl

/-- A file that stood in a directory stands in it in the tree with slashes. -/
theorem file_slashedTree (keyed : base.IsKeyed) {node : Node Text}
    (registered : node ∈ base.nodes.values) :
    (Path.withSlashes (dirname node.path), node.withSlashes) ∈ base.slashedTree.placed := by
  have relative := relative_of_mem_keys keyed (key_of_mem_values keyed registered).1
  have stood : (dirname node.path, node) ∈ filesAmong base.withTree.placed := by
    rw [(filesAmong_perm keyed.flat).mem_iff]
    exact List.mem_map_of_mem (List.mem_filter.2 ⟨registered, by simpa using relative⟩)
  rw [placed_slashedTree]
  exact List.mem_map_of_mem (List.mem_filter.1 stood).1

/-- A directory on the way to a file stands in the tree with slashes, under its old name. -/
theorem directory_slashedTree (keyed : base.IsKeyed) {d : Text} (relative : ¬ isAbsolute d)
    (known : d ∈ base.directories) :
    ∃ parent, (parent, (base.directoryAt d).withSlashes) ∈
      directoriesAmong base.slashedTree.placed := by
  have below := (mem_pathsBelow_nil keyed.flat).2 ⟨known, relative⟩
  obtain ⟨place, stands, rfl⟩ := List.mem_map.1 below
  obtain ⟨_, _, _, same⟩ := directoryAt_of_mem_placed keyed.flat stands
  obtain ⟨inTree, some⟩ := List.mem_filter.1 stands
  refine ⟨Path.withSlashes place.1, List.mem_filter.2 ⟨?_, ?_⟩⟩
  · rw [placed_slashedTree, ← same]
    exact List.mem_map_of_mem (f := fun place : Text × Node Text =>
      (Path.withSlashes place.1, place.2.withSlashes)) inTree
  · rw [← same, Node.children_withSlashes]
    simpa using some

theorem placed_of_settled (settled : base.slashedTree.IsTreeSettled) :
    base.slashedTree.placed = base.slashedTree.withTree.placed := by
  rw [Graph.placed, Graph.placed, ← isTreeSettled_iff.1 settled]
  rfl

/-- In a settled tree a directory on the way to a file is one of the registry, under its old name
and with what stood in it. -/
theorem directoryAt_of_settled (keyed : base.IsKeyed) (settled : base.slashedTree.IsTreeSettled)
    {d : Text} (relative : ¬ isAbsolute d) (known : d ∈ base.directories) :
    (base.directoryAt d).withSlashes = base.slashedTree.directoryAt (Path.withSlashes d) := by
  obtain ⟨parent, stands⟩ := directory_slashedTree keyed relative known
  rw [placed_of_settled settled] at stands
  have same := (directoryAt_of_mem_placed (flat_slashedTree keyed.flat) stands).2.2.2
  rwa [Node.path_withSlashes, path_directoryAt] at same

theorem no_backslash_in_basename_of_settled (keyed : base.IsKeyed)
    (settled : base.slashedTree.IsTreeSettled) {d : Text} (relative : ¬ isAbsolute d)
    (known : d ∈ base.directories) : .scalar '\\' ∉ basename d := by
  have titles := congrArg Node.name (directoryAt_of_settled keyed settled relative known)
  rw [Node.name_withSlashes] at titles
  change basename d = basename (Path.withSlashes d) at titles
  rw [titles]
  intro inside
  exact no_backslash_in_withSlashes d (List.rtakeWhile_suffix _ _ |>.subset inside)

/-- In a settled tree files have stayed in their directories. -/
theorem stays_of_settled (keyed : base.IsKeyed) (settled : base.slashedTree.IsTreeSettled)
    {p : Text} (known : p ∈ base.nodes.keys) : Stays p := by
  obtain ⟨node, registered, _, rfl⟩ := exists_node keyed known
  have relative := relative_of_mem_keys keyed known
  have above : .scalar '\\' ∉ dirname node.path := by
    apply no_backslash_in_dirname relative
    intro d ancestor
    obtain ⟨_, n, reached⟩ := id ancestor
    have below : ¬ isAbsolute d := by
      rw [← reached, isAbsolute_iterate_dirname]
      exact relative
    exact no_backslash_in_basename_of_settled keyed settled below
      ((mem_directories_iff below).2 ⟨node, registered, ancestor⟩)
  refine ⟨above, ?_⟩
  have stands := file_slashedTree keyed registered
  rw [placed_of_settled settled] at stands
  obtain ⟨outside, kind⟩ :=
    mem_placedBelow (flat_slashedTree keyed.flat) isAbsolute_nil _ stands
  rcases kind with file | ⟨e, listed, same⟩
  · have house := (mem_filesIn.1 file).2
    rwa [Node.path_withSlashes, withSlashes_eq_self above] at house
  · -- A directory has children, and the node of a file has none.
    have childless : node.withSlashes.children = [] := by
      rw [Node.children_withSlashes, keyed.flat node registered]
      rfl
    have below := relative_of_mem_subdirectories outside listed
    change node.withSlashes = base.slashedTree.directoryAt e at same
    rw [same, children_directoryAt] at childless
    exact absurd childless (contents_ne_nil below (mem_subdirectories.1 listed).1)

/-- In a settled tree what stood in a directory stands in it. -/
theorem contents_of_settled (keyed : base.IsKeyed) (settled : base.slashedTree.IsTreeSettled)
    {d : Text} (relative : ¬ isAbsolute d) (known : d = [] ∨ d ∈ base.directories)
    (plain : .scalar '\\' ∉ d) :
    base.slashedTree.contents d = (base.contents d).map Node.withSlashes := by
  rcases known with rfl | listed
  · exact (isTreeSettled_iff.1 settled).trans children_slashedTree
  · have children := congrArg Node.children (directoryAt_of_settled keyed settled relative listed)
    rw [Node.children_withSlashes, withSlashes_eq_self plain] at children
    exact children.symm

/-- The files of a directory are those of its nodes that have no children. -/
theorem filter_contents (flat : base.IsFlat) {d : Text} (relative : ¬ isAbsolute d) :
    (base.contents d).filter (fun node => node.children.isEmpty) = base.filesIn d := by
  have files : (base.filesIn d).filter (fun node => node.children.isEmpty) = base.filesIn d := by
    apply List.filter_eq_self.2
    intro node inside
    simp [childless_of_mem_filesIn flat inside]
  have none : ((base.subdirectories d).map base.directoryAt).filter
      (fun node => node.children.isEmpty) = [] := by
    apply List.filter_eq_nil_iff.2
    intro node inside
    obtain ⟨e, listed, rfl⟩ := List.mem_map.1 inside
    have some := contents_ne_nil (relative_of_mem_subdirectories relative listed)
      (mem_subdirectories.1 listed).1
    simp [children_directoryAt, some]
  rw [contents_eq relative, List.filter_append, files, none, List.append_nil]

theorem filesIn_of_settled (keyed : base.IsKeyed) (settled : base.slashedTree.IsTreeSettled)
    {d : Text} (relative : ¬ isAbsolute d) (known : d = [] ∨ d ∈ base.directories)
    (plain : .scalar '\\' ∉ d) :
    base.slashedTree.filesIn d = (base.filesIn d).map Node.withSlashes := by
  rw [← filter_contents (flat_slashedTree keyed.flat) relative,
    contents_of_settled keyed settled relative known plain, List.filter_map,
    ← filter_contents keyed.flat relative]
  simp [Function.comp_def]

/-- In a settled tree the files of a directory have kept their order. -/
theorem keepOrder_of_settled (keyed : base.IsKeyed) (settled : base.slashedTree.IsTreeSettled) :
    KeepOrder base.nodes.keys := by
  intro p inLeft q inRight siblings order
  have relative : ¬ isAbsolute (dirname p) := by
    simpa using relative_of_mem_keys keyed inLeft
  obtain ⟨left, hereLeft, idLeft, pathLeft⟩ := exists_node keyed inLeft
  obtain ⟨right, hereRight, idRight, pathRight⟩ := exists_node keyed inRight
  have known : dirname p = [] ∨ dirname p ∈ base.directories := by
    by_cases top : dirname p = []
    · exact .inl top
    · refine .inr ((mem_directories_iff relative).2 ⟨left, hereLeft, top, 0, ?_⟩)
      rw [pathLeft]
      rfl
  have sorted : Text.Sorted (fun node => Path.withSlashes node.id) (base.filesIn (dirname p)) := by
    have again := base.slashedTree.filesIn_sorted (dirname p)
    rw [filesIn_of_settled keyed settled relative known (stays_of_settled keyed settled inLeft).1,
      Text.Sorted, List.pairwise_map] at again
    simp only [Node.id_withSlashes] at again
    exact again
  have follows : ∀ x y : Node Text, x.id = y.id → Path.withSlashes x.id = Path.withSlashes y.id :=
    fun x y same => congrArg _ same
  have kept := Text.le_of_sorted (filesIn_sorted (dirname p)) sorted follows
    left (mem_filesIn.2 ⟨hereLeft, by rw [pathLeft]⟩)
    right (mem_filesIn.2 ⟨hereRight, by rw [pathRight, siblings]⟩)
  rw [idLeft, idRight] at kept
  exact kept order

/-! ## To a tree that is settled -/

theorem values_slashedTree (apart : StayApart base.nodes.keys) :
    base.slashedTree.nodes.values = base.nodes.values.map Node.withSlashes := by
  rw [nodes_slashedTree, Table.values, entries_withSlashes apart, slashedEntries, Table.values]
  simp

/-- A path that stays in its directory has the same directories on the way to it. -/
theorem ancestors_withSlashes {p : Text} (relative : ¬ isAbsolute p) (stays : Stays p) :
    ancestors (Path.withSlashes p) = ancestors p := by
  have below : ¬ isAbsolute (Path.withSlashes p) := by
    rw [← isAbsolute_dirname, stays.2, isAbsolute_dirname]
    exact relative
  rw [ancestors_eq below, ancestors_eq relative, stays.2]

theorem directories_slashedTree (keyed : base.IsKeyed) (stay : ∀ p ∈ base.nodes.keys, Stays p) :
    base.slashedTree.directories = base.directories := by
  rw [directories, directories, values_slashedTree (stayApart_of_stays keyed stay),
    List.flatMap_map]
  congr 1
  apply List.flatMap_congr
  intro node registered
  have known := (key_of_mem_values keyed registered).1
  rw [Node.path_withSlashes]
  exact ancestors_withSlashes (relative_of_mem_keys keyed known) (stay node.path known)

/-- The directories on the way to files that stay have no backslashes. -/
theorem plain_of_mem_directories (keyed : base.IsKeyed) (stay : ∀ p ∈ base.nodes.keys, Stays p)
    {d : Text} (listed : d ∈ base.directories) : Path.withSlashes d = d := by
  obtain ⟨node, registered, inside⟩ := (mem_directories base).1 listed
  have known := (key_of_mem_values keyed registered).1
  obtain ⟨_, n, rfl⟩ := (mem_ancestors (relative_of_mem_keys keyed known)).1 inside
  apply withSlashes_eq_self
  intro backslash
  rw [Function.iterate_succ_apply] at backslash
  exact (stay node.path known).1 ((iterate_dirname_opens n _).subset backslash)

/-- Files that stay apart and keep their order are in the order they were in. -/
theorem le_withSlashes_iff (apart : StayApart base.nodes.keys) (order : KeepOrder base.nodes.keys)
    {p q : Text} (inLeft : p ∈ base.nodes.keys) (inRight : q ∈ base.nodes.keys)
    (siblings : dirname p = dirname q) :
    Text.le p q ↔ Text.le (Path.withSlashes p) (Path.withSlashes q) := by
  constructor
  · exact order p inLeft q inRight siblings
  · intro behind
    by_contra other
    have back : Text.le q p := by
      have either := Text.le_total p q
      rw [Bool.or_eq_true] at either
      exact either.resolve_left other
    have before := order q inRight p inLeft siblings.symm back
    have same := apart p inLeft q inRight (Text.le_antisymm behind before)
    rw [same] at other
    exact other (Text.le_refl _)

/-- Files that stay in their directories and keep their order are listed as they were. -/
theorem filesIn_slashedTree (keyed : base.IsKeyed) (stay : ∀ p ∈ base.nodes.keys, Stays p)
    (order : KeepOrder base.nodes.keys) (d : Text) :
    base.slashedTree.filesIn d = (base.filesIn d).map Node.withSlashes := by
  have apart := stayApart_of_stays keyed stay
  have kept : (base.nodes.values.filter fun node => dirname node.withSlashes.path == d) =
      base.nodes.values.filter fun node => dirname node.path == d := by
    apply List.filter_congr
    intro node registered
    rw [Node.path_withSlashes, (stay node.path (key_of_mem_values keyed registered).1).2]
  have listed : base.slashedTree.filesIn d =
      ((base.nodes.values.map Node.withSlashes).filter fun node => dirname node.path == d).mergeSort
        fun a b => Text.le a.id b.id := by
    rw [← values_slashedTree apart]
    rfl
  rw [listed, List.filter_map]
  simp only [Function.comp_def]
  rw [kept]
  symm
  apply List.map_mergeSort
  intro a inLeft b inRight
  obtain ⟨registeredLeft, houseLeft⟩ := List.mem_filter.1 inLeft
  obtain ⟨registeredRight, houseRight⟩ := List.mem_filter.1 inRight
  obtain ⟨knownLeft, idLeft⟩ := key_of_mem_values keyed registeredLeft
  obtain ⟨knownRight, idRight⟩ := key_of_mem_values keyed registeredRight
  have siblings : dirname a.path = dirname b.path :=
    (beq_iff_eq.1 houseLeft).trans (beq_iff_eq.1 houseRight).symm
  show Text.le a.id b.id = Text.le a.withSlashes.id b.withSlashes.id
  rw [Node.id_withSlashes, Node.id_withSlashes, idLeft, idRight, Bool.eq_iff_iff]
  exact le_withSlashes_iff apart order knownLeft knownRight siblings

/-- So is everything else, level by level. -/
theorem childrenOf_slashedTree (keyed : base.IsKeyed) (stay : ∀ p ∈ base.nodes.keys, Stays p)
    (order : KeepOrder base.nodes.keys) (levels : Nat) (d : Text) :
    childrenOf base.slashedTree.filesIn (directoriesIn base.directories) levels d =
      (childrenOf base.filesIn (directoriesIn base.directories) levels d).map
        Node.withSlashes := by
  induction levels generalizing d with
  | zero => exact filesIn_slashedTree keyed stay order d
  | succ levels ih =>
    simp only [childrenOf]
    rw [filesIn_slashedTree keyed stay order d, List.map_append, List.map_map]
    congr 1
    apply List.map_congr_left
    intro e inside
    have plain := plain_of_mem_directories keyed stay (mem_directoriesIn.1 inside).1
    rw [ih e, Function.comp_apply]
    simp only [directoryNode, Node.withSlashes, Node.withSlashesAll_eq_map, List.map_nil]
    show directoryNode e _ = { directoryNode e _ with
      id := Path.withSlashes e, path := Path.withSlashes e }
    rw [plain]
    rfl

/-- A tree that was built before backslashes became slashes is settled exactly if every file stays
in its directory and files of one directory keep their order. -/
theorem settledTree_iff (keyed : base.IsKeyed) :
    base.slashedTree.IsTreeSettled ↔
      (∀ p ∈ base.nodes.keys, Stays p) ∧ KeepOrder base.nodes.keys := by
  constructor
  · intro settled
    exact ⟨fun p known => stays_of_settled keyed settled known, keepOrder_of_settled keyed settled⟩
  · rintro ⟨stay, order⟩
    rw [isTreeSettled_iff, children_slashedTree, forest, directories_slashedTree keyed stay]
    exact childrenOf_slashedTree keyed stay order _ []

end

end Graph
end ModuleAtlas
