import ModuleAtlas.Proofs.Graph.Forest
import Mathlib.Data.List.Perm.Basic
/-!
What the tree of a graph looks like from outside. It mirrors the paths of the registered files
(`mirrors_withTree`): each file stands once, in the directory of its path, and there are exactly
the directories on the way to files. A file whose path opens with a slash has no place
(`filesAmong_perm`).
-/
namespace ModuleAtlas.Graph
open ModuleAtlas.Path
variable {graph : Graph Text}

/-! ## The directories below a directory -/

/-- The way up from a directory below another one leads to it. -/
theorem climb_of_mem_pathsBelow (flat : graph.IsFlat) {d : Text} (relative : ¬ isAbsolute d) :
    ∀ e ∈ graph.pathsBelow d,
      e ∈ graph.directories ∧ ¬ isAbsolute e ∧ ∃ n, dirname^[n + 1] e = d := by
  induction d, relative using directory_induction graph with
  | step d relative ih =>
    intro e inside
    rw [pathsBelow_eq flat relative] at inside
    obtain ⟨f, listed, below⟩ := List.mem_flatMap.1 inside
    obtain ⟨known, same⟩ := mem_subdirectories.1 listed
    rcases List.mem_cons.1 below with rfl | deeper
    · exact ⟨known, relative_of_mem_subdirectories relative listed, 0, same⟩
    · obtain ⟨known, relative, n, reached⟩ := ih f listed e deeper
      refine ⟨known, relative, n + 1, ?_⟩
      rw [Function.iterate_succ_apply' dirname, reached, same]

/-- Two directories of one directory do not lie on the same way up. -/
theorem eq_of_climb {x e f : Text} {n m : Nat} (relative : ¬ isAbsolute f) (some : f ≠ [])
    (left : dirname^[n] x = e) (right : dirname^[m] x = f) (siblings : dirname e = dirname f)
    (order : n ≤ m) : e = f := by
  obtain ⟨k, rfl⟩ := Nat.exists_eq_add_of_le' order
  rw [Function.iterate_add_apply, left] at right
  cases k with
  | zero => exact right
  | succ k =>
    rw [Function.iterate_succ_apply, siblings] at right
    have shorter := length_dirname relative some
    have longer := length_iterate_dirname k (dirname f)
    rw [right] at longer
    omega

/-- The way up from a directory or one below it leads to it. -/
theorem climb_of_mem (flat : graph.IsFlat) {e x : Text} (relative : ¬ isAbsolute e)
    (inside : x ∈ e :: graph.pathsBelow e) : ∃ n, dirname^[n] x = e := by
  rcases List.mem_cons.1 inside with rfl | deeper
  · exact ⟨0, rfl⟩
  · obtain ⟨_, _, n, reached⟩ := climb_of_mem_pathsBelow flat relative x deeper
    exact ⟨n + 1, reached⟩

/-- No directory stands below itself. -/
theorem not_mem_pathsBelow (flat : graph.IsFlat) {e : Text} (relative : ¬ isAbsolute e)
    (some : e ≠ []) : e ∉ graph.pathsBelow e := by
  intro again
  obtain ⟨_, _, n, reached⟩ := climb_of_mem_pathsBelow flat relative e again
  have shorter := length_dirname relative some
  have longer := length_iterate_dirname n (dirname e)
  rw [← Function.iterate_succ_apply, reached] at longer
  omega

theorem pathsBelow_nodup (flat : graph.IsFlat) {d : Text} (relative : ¬ isAbsolute d) :
    (graph.pathsBelow d).Nodup := by
  have named : ∀ {d e}, ¬ isAbsolute d → e ∈ graph.subdirectories d → ¬ isAbsolute e ∧ e ≠ [] := by
    intro d e relative listed
    refine ⟨relative_of_mem_subdirectories relative listed, ?_⟩
    rintro rfl
    exact nil_not_mem_directories (mem_subdirectories.1 listed).1
  induction d, relative using directory_induction graph with
  | step d relative ih =>
    rw [pathsBelow_eq flat relative, List.nodup_flatMap]
    constructor
    · intro e listed
      obtain ⟨below, some⟩ := named relative listed
      exact List.nodup_cons.2 ⟨not_mem_pathsBelow flat below some, ih e listed⟩
    · -- Two ways up from one directory would meet in the two directories.
      have distinct : (graph.subdirectories d).Nodup :=
        (Text.sort_perm _).nodup_iff.2 (graph.directories_nodup.filter _)
      apply distinct.imp_of_mem
      intro e f inLeft inRight apart x left right
      obtain ⟨belowLeft, someLeft⟩ := named relative inLeft
      obtain ⟨belowRight, someRight⟩ := named relative inRight
      obtain ⟨n, toLeft⟩ := climb_of_mem flat belowLeft left
      obtain ⟨m, toRight⟩ := climb_of_mem flat belowRight right
      have siblings : dirname e = dirname f :=
        (mem_subdirectories.1 inLeft).2.trans (mem_subdirectories.1 inRight).2.symm
      rcases Nat.le_total n m with order | order
      · exact apart (eq_of_climb belowRight someRight toLeft toRight siblings order)
      · exact apart (eq_of_climb belowLeft someLeft toRight toLeft siblings.symm order).symm

theorem mem_pathsBelow_of_mem_subdirectories (flat : graph.IsFlat) {d e f : Text}
    (relative : ¬ isAbsolute d) (below : e ∈ graph.pathsBelow d)
    (inside : f ∈ graph.subdirectories e) : f ∈ graph.pathsBelow d := by
  induction d, relative using directory_induction graph with
  | step d relative ih =>
    rw [pathsBelow_eq flat relative] at below ⊢
    obtain ⟨g, listed, under⟩ := List.mem_flatMap.1 below
    refine List.mem_flatMap.2 ⟨g, listed, ?_⟩
    rcases List.mem_cons.1 under with rfl | deeper
    · rw [pathsBelow_eq flat (relative_of_mem_subdirectories relative listed)]
      exact List.mem_cons_of_mem _ (List.mem_flatMap.2 ⟨f, inside, List.mem_cons_self⟩)
    · exact List.mem_cons_of_mem _ (ih g listed deeper)

theorem isAbsolute_nil : ¬ isAbsolute [] := by simp [isAbsolute]

/-- The relative directories of the graph stand below the root. -/
theorem mem_pathsBelow_nil (flat : graph.IsFlat) {e : Text} :
    e ∈ graph.pathsBelow [] ↔ e ∈ graph.directories ∧ ¬ isAbsolute e := by
  constructor
  · intro below
    obtain ⟨known, relative, _⟩ := climb_of_mem_pathsBelow flat isAbsolute_nil e below
    exact ⟨known, relative⟩
  · rintro ⟨known, relative⟩
    by_cases top : dirname e = []
    · rw [pathsBelow_eq flat isAbsolute_nil]
      exact List.mem_flatMap.2 ⟨e, mem_subdirectories.2 ⟨known, top⟩, List.mem_cons_self⟩
    · have shorter : (dirname e).length < e.length := by
        apply length_dirname relative
        rintro rfl
        exact nil_not_mem_directories known
      have above : dirname e ∈ graph.pathsBelow [] :=
        (mem_pathsBelow_nil flat).2
          ⟨dirname_mem_directories relative known top, by simpa using relative⟩
      exact mem_pathsBelow_of_mem_subdirectories flat isAbsolute_nil above
        (mem_subdirectories.2 ⟨known, rfl⟩)
termination_by e.length

/-! ## The files below the root -/

/-- The directory of a registered file is the root or below it exactly if its path is relative. -/
theorem dirname_mem_pathsBelow_iff (flat : graph.IsFlat) {node : Node Text}
    (registered : node ∈ graph.nodes.values) :
    dirname node.path ∈ [] :: graph.pathsBelow [] ↔ ¬ isAbsolute node.path := by
  rw [List.mem_cons, mem_pathsBelow_nil flat, isAbsolute_dirname]
  constructor
  · rintro (top | ⟨_, relative⟩)
    · rw [← isAbsolute_dirname, top]
      exact isAbsolute_nil
    · exact relative
  · intro relative
    by_cases top : dirname node.path = []
    · exact .inl top
    · refine .inr ⟨?_, relative⟩
      exact (mem_directories_iff (by simpa using relative)).2 ⟨node, registered, top, 0, rfl⟩

theorem filesIn_perm_map (e : Text) :
    ((graph.filesIn e).map (e, ·)).Perm
      ((graph.nodes.values.filter fun node => dirname node.path == e).map fun node =>
        (dirname node.path, node)) := by
  have own : ((graph.nodes.values.filter fun node => dirname node.path == e).map fun node =>
        (dirname node.path, node)) =
      (graph.nodes.values.filter fun node => dirname node.path == e).map (e, ·) := by
    apply List.map_congr_left
    intro node kept
    have same : dirname node.path = e := by simpa using (List.mem_filter.1 kept).2
    rw [same]
  rw [own]
  exact (filesIn_perm e).map _

/-- The files with relative paths stand below the root, each once and in its directory. -/
theorem filesAmong_perm (flat : graph.IsFlat) :
    (filesAmong graph.withTree.placed).Perm
      ((graph.nodes.values.filter fun node => !isAbsolute node.path).map fun node =>
        (dirname node.path, node)) := by
  have distinct : ([] :: graph.pathsBelow []).Nodup := by
    rw [List.nodup_cons, mem_pathsBelow_nil flat]
    exact ⟨fun inside => nil_not_mem_directories inside.1, pathsBelow_nodup flat isAbsolute_nil⟩
  have listed : filesAmong graph.withTree.placed =
      ([] :: graph.pathsBelow []).flatMap fun e => (graph.filesIn e).map (e, ·) :=
    filesAmong_placedBelow flat isAbsolute_nil
  have covered : (graph.nodes.values.filter fun node =>
      ([] :: graph.pathsBelow []).contains (dirname node.path)) =
        graph.nodes.values.filter fun node => !isAbsolute node.path := by
    apply List.filter_congr
    intro node registered
    rw [Bool.eq_iff_iff, List.contains_iff_mem, dirname_mem_pathsBelow_iff flat registered]
    simp
  rw [listed]
  refine (List.Perm.flatMap_left _ fun e _ => filesIn_perm_map e).trans ?_
  rw [← List.map_flatMap, ← covered]
  exact (Text.flatMap_filter_perm (fun node : Node Text => dirname node.path) _ distinct).map _

/-! ## The whole tree -/

/-- Files stand first, by id, and then directories, by strictly increasing path. -/
def IsOrdered (children : List (Node Text)) : Prop :=
  ∃ files directories, children = files ++ directories ∧
    (∀ file ∈ files, file.children = []) ∧ (∀ directory ∈ directories, directory.children ≠ []) ∧
    Text.Sorted Node.id files ∧ Text.StrictlySorted Node.path directories

/-- The tree of `after` mirrors the paths of the files that are registered in `before`. -/
structure Mirrors (before after : Graph Text) : Prop where
  /-- Every registered file stands once, as it is, in the directory of its path. -/
  files : (filesAmong after.placed).Perm
    (before.nodes.values.map fun node => (dirname node.path, node))
  /-- No directory stands twice. -/
  distinct : ((directoriesAmong after.placed).map fun place => place.2.path).Nodup
  /-- A directory stands in its own directory, goes by the last segment of its path, and a file
  stands in it or below it. -/
  directories : ∀ place ∈ directoriesAmong after.placed,
    place.1 = dirname place.2.path ∧
    place.2 = directoryNode place.2.path place.2.children ∧
    ∃ file ∈ before.nodes.values, IsAncestor place.2.path file.path
  /-- Every directory on the way to a file is there. -/
  ancestors : ∀ file ∈ before.nodes.values, ∀ d, IsAncestor d file.path →
    ∃ place ∈ directoriesAmong after.placed, place.2.path = d
  ordered : ∀ children ∈ after.root.children :: after.placed.map fun place => place.2.children,
    IsOrdered children
  /-- Nothing but the children of the root has changed. -/
  around : after = { before with root := { before.root with children := after.root.children } }

theorem isOrdered_contents (flat : graph.IsFlat) {d : Text} (relative : ¬ isAbsolute d) :
    IsOrdered (graph.contents d) := by
  refine ⟨graph.filesIn d, (graph.subdirectories d).map graph.directoryAt, contents_eq relative,
    fun file inside => childless_of_mem_filesIn flat inside, ?_, filesIn_sorted d, ?_⟩
  · intro directory inside
    obtain ⟨e, listed, rfl⟩ := List.mem_map.1 inside
    exact contents_ne_nil (relative_of_mem_subdirectories relative listed)
      (mem_subdirectories.1 listed).1
  · rw [Text.StrictlySorted, List.pairwise_map]
    exact Text.sort_strictlySorted (graph.directories_nodup.filter _)

/-- A directory that stands below the root is one of the graph, in its own directory. -/
theorem directoryAt_of_mem_placed (flat : graph.IsFlat) {place : Text × Node Text}
    (inside : place ∈ directoriesAmong graph.withTree.placed) :
    place.2.path ∈ graph.directories ∧ ¬ isAbsolute place.2.path ∧
      place.1 = dirname place.2.path ∧ place.2 = graph.directoryAt place.2.path := by
  obtain ⟨stands, some⟩ := List.mem_filter.1 inside
  obtain ⟨relative, kind⟩ := mem_placedBelow flat isAbsolute_nil place stands
  rcases kind with file | ⟨e, listed, same⟩
  · simp [childless_of_mem_filesIn flat file] at some
  · obtain ⟨known, parent⟩ := mem_subdirectories.1 listed
    rw [same, path_directoryAt]
    exact ⟨known, relative_of_mem_subdirectories relative listed, parent.symm, rfl⟩

/-- The tree mirrors the paths of the registered files, whatever these paths are, as long as none
opens with a slash. -/
theorem mirrors_withTree (graph : Graph Text) (flat : graph.IsFlat)
    (relative : ∀ node ∈ graph.nodes.values, ¬ isAbsolute node.path) :
    Mirrors graph graph.withTree := by
  refine ⟨?_, pathsBelow_nodup flat isAbsolute_nil, ?_, ?_, ?_, rfl⟩
  · have all : (graph.nodes.values.filter fun node => !isAbsolute node.path) =
        graph.nodes.values := by
      apply List.filter_eq_self.2
      intro node registered
      simpa using relative node registered
    rw [← all]
    exact filesAmong_perm flat
  · intro place inside
    obtain ⟨known, below, parent, same⟩ := directoryAt_of_mem_placed flat inside
    refine ⟨parent, ?_, (mem_directories_iff below).1 known⟩
    rw [same]
    rfl
  · intro file registered d ancestor
    obtain ⟨_, n, reached⟩ := id ancestor
    have below : ¬ isAbsolute d := by
      rw [← reached, isAbsolute_iterate_dirname]
      exact relative file registered
    have known := (mem_directories_iff below).2 ⟨file, registered, ancestor⟩
    exact List.mem_map.1 ((mem_pathsBelow_nil flat).2 ⟨known, below⟩)
  · intro children listed
    rcases List.mem_cons.1 listed with rfl | further
    · exact isOrdered_contents flat isAbsolute_nil
    · obtain ⟨place, stands, rfl⟩ := List.mem_map.1 further
      obtain ⟨above, kind⟩ := mem_placedBelow flat isAbsolute_nil place stands
      rcases kind with file | ⟨e, inside, same⟩
      · rw [childless_of_mem_filesIn flat file]
        exact ⟨[], [], rfl, by simp, by simp, List.Pairwise.nil, List.Pairwise.nil⟩
      · rw [same, children_directoryAt]
        exact isOrdered_contents flat (relative_of_mem_subdirectories above inside)

/-- Paths that look alike: a directory and one whose name continues it, an empty segment, a dot,
a slash at the end, and no segment at all. -/
def lookalikes : Graph Text where
  root := { id := rootId, name := "app", path := "/work/app", kind := Node.rootKind }
  nodes := Table.ofList (["src2/b.js", "src/a.js", "src//c.js", "src/./d.js", "lib/", ""].map
    fun p : String => ((p : Text), { id := p, name := "x", path := p, kind := "util" }))

theorem lookalikes_mirrored : lookalikes.IsFlat ∧
    (∀ node ∈ lookalikes.nodes.values, ¬ isAbsolute node.path) ∧
    Mirrors lookalikes lookalikes.withTree := by
  have childless : lookalikes.nodes.values.all fun node => node.children.isEmpty := by decide
  have flat : lookalikes.IsFlat := by
    intro node registered
    simpa using List.all_eq_true.1 childless node registered
  have relative : ∀ node ∈ lookalikes.nodes.values, ¬ isAbsolute node.path := by decide
  exact ⟨flat, relative, mirrors_withTree lookalikes flat relative⟩

end ModuleAtlas.Graph
