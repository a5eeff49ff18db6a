import ModuleAtlas.Proofs.Path.Directory
import ModuleAtlas.Proofs.Text.Order
/-!
The directories of a graph. Those on the way to a relative path are its proper ancestors
(`mem_ancestors`), so with a directory of registered files its own directories are directories of
the graph as well (`dirname_mem_directories`). Below a relative directory the way down is never
longer than there are directories with longer paths (`rank`).
-/
namespace ModuleAtlas

/-- The path leads into the directory, perhaps through further ones. -/
def Path.IsAncestor (directory p : Text) : Prop :=
  directory ≠ [] ∧ ∃ n, Path.dirname^[n + 1] p = directory

namespace Graph
open ModuleAtlas.Path

theorem dirname_nil : dirname [] = [] := rfl

theorem iterate_dirname_nil (n : Nat) : dirname^[n] [] = [] :=
  Function.iterate_fixed dirname_nil n

theorem iterate_dirname_opens (n : Nat) (p : Text) : dirname^[n] p <+: p := by
  induction n generalizing p with
  | zero => exact List.prefix_refl p
  | succ n ih => exact (ih (dirname p)).trans (dirname_opens p)

theorem length_iterate_dirname (n : Nat) (p : Text) : (dirname^[n] p).length ≤ p.length :=
  (iterate_dirname_opens n p).length_le

@[simp] theorem isAbsolute_iterate_dirname (n : Nat) (p : Text) :
    isAbsolute (dirname^[n] p) = isAbsolute p := by
  induction n generalizing p with
  | zero => rfl
  | succ n ih => rw [Function.iterate_succ_apply, ih, isAbsolute_dirname]

theorem ancestors_eq {p : Text} (relative : ¬ isAbsolute p) :
    ancestors p = if dirname p = [] then [] else dirname p :: ancestors (dirname p) := by
  rw [ancestors]
  by_cases nothing : dirname p = []
  · simp [nothing]
  · have some : p ≠ [] := by
      rintro rfl
      exact nothing rfl
    simp [nothing, length_dirname relative some]

/-- The directories on the way to a relative path are its proper ancestors. -/
theorem mem_ancestors {d p : Text} (relative : ¬ isAbsolute p) :
    d ∈ ancestors p ↔ IsAncestor d p := by
  by_cases nothing : dirname p = []
  · simp only [ancestors_eq relative, nothing, ↓reduceIte, List.not_mem_nil, false_iff]
    rintro ⟨some, n, reached⟩
    rw [Function.iterate_succ_apply, nothing, iterate_dirname_nil] at reached
    exact some reached.symm
  · have shorter : (dirname p).length < p.length := by
      apply length_dirname relative
      rintro rfl
      exact nothing rfl
    have onward : d ∈ ancestors (dirname p) ↔ IsAncestor d (dirname p) :=
      mem_ancestors (by simpa using relative)
    rw [ancestors_eq relative, if_neg nothing, List.mem_cons, onward]
    constructor
    · rintro (rfl | ⟨some, n, reached⟩)
      · exact ⟨nothing, 0, rfl⟩
      · exact ⟨some, n + 1, reached⟩
    · rintro ⟨some, n, reached⟩
      cases n with
      | zero => exact .inl reached.symm
      | succ n => exact .inr ⟨some, n, reached⟩
termination_by p.length

theorem ne_nil_of_mem_ancestors {d p : Text} (inside : d ∈ ancestors p) :
    d ≠ [] ∧ isAbsolute d = isAbsolute p := by
  fun_induction ancestors p with
  | case1 p directory nothing => simp at inside
  | case2 p directory some shorter ih =>
    rcases List.mem_cons.1 inside with rfl | further
    · exact ⟨by simpa using some, isAbsolute_dirname p⟩
    · exact ⟨(ih further).1, (ih further).2.trans (isAbsolute_dirname p)⟩
  | case3 p directory some _ =>
    rw [List.mem_singleton.1 inside]
    exact ⟨by simpa using some, isAbsolute_dirname p⟩

/-! ## The directories of registered files -/

section
variable (graph : Graph Text)

theorem mem_directories {d : Text} :
    d ∈ graph.directories ↔ ∃ node ∈ graph.nodes.values, d ∈ ancestors node.path := by
  rw [directories, List.mem_eraseDups, List.mem_flatMap]
  rfl

theorem nodup_eraseDups (ts : List Text) : ts.eraseDups.Nodup := by
  match ts with
  | [] => simp
  | t :: ts =>
    have shorter : (ts.filter fun u => !u == t).length ≤ ts.length := List.length_filter_le _ _
    rw [List.eraseDups_cons, List.nodup_cons, List.mem_eraseDups]
    exact ⟨by simp, nodup_eraseDups _⟩
termination_by ts.length

theorem directories_nodup : graph.directories.Nodup := nodup_eraseDups _

variable {graph}

theorem nil_not_mem_directories : [] ∉ graph.directories := by
  intro inside
  obtain ⟨_, _, ancestor⟩ := (mem_directories graph).1 inside
  exact (ne_nil_of_mem_ancestors ancestor).1 rfl

/-- The relative directories of a graph are the proper ancestors of its files. -/
theorem mem_directories_iff {d : Text} (relative : ¬ isAbsolute d) :
    d ∈ graph.directories ↔ ∃ node ∈ graph.nodes.values, IsAncestor d node.path := by
  rw [mem_directories]
  apply exists_congr
  intro node
  apply and_congr_right
  intro _
  constructor
  · intro inside
    have same := (ne_nil_of_mem_ancestors inside).2
    exact (mem_ancestors (same ▸ relative)).1 inside
  · intro ancestor
    obtain ⟨_, n, rfl⟩ := id ancestor
    exact (mem_ancestors (by simpa using relative)).2 ancestor

theorem dirname_mem_directories {d : Text} (relative : ¬ isAbsolute d)
    (inside : d ∈ graph.directories) (some : dirname d ≠ []) : dirname d ∈ graph.directories := by
  obtain ⟨node, registered, _, n, rfl⟩ := (mem_directories_iff relative).1 inside
  refine (mem_directories_iff (by simpa using relative)).2 ⟨node, registered, some, n + 1, ?_⟩
  rw [Function.iterate_succ_apply']

end

/-! ## Going down -/

theorem mem_directoriesIn {directories : List Text} {d e : Text} :
    e ∈ directoriesIn directories d ↔ e ∈ directories ∧ dirname e = d := by
  rw [directoriesIn, (Text.sort_perm _).mem_iff, List.mem_filter, beq_iff_eq]

/-- The number of directories with longer paths. -/
def rank (directories : List Text) (d : Text) : Nat :=
  directories.countP fun e => d.length < e.length

/-- Going down from a relative directory leaves fewer directories with longer paths. -/
theorem rank_lt {directories : List Text} {d e : Text} (relative : ¬ isAbsolute d)
    (named : [] ∉ directories) (inside : e ∈ directoriesIn directories d) :
    rank directories e < rank directories d := by
  obtain ⟨listed, rfl⟩ := mem_directoriesIn.1 inside
  have some : e ≠ [] := by
    rintro rfl
    exact named listed
  have longer : (dirname e).length < e.length := length_dirname (by simpa using relative) some
  have apart := List.perm_cons_erase listed
  rw [rank, rank, apart.countP_eq, apart.countP_eq, List.countP_cons, List.countP_cons]
  have others : (directories.erase e).countP (fun f => decide (e.length < f.length)) ≤
      (directories.erase e).countP fun f => decide ((dirname e).length < f.length) := by
    apply List.countP_mono_left
    intro f _ longest
    simp only [decide_eq_true_eq] at longest ⊢
    omega
  simp only [Nat.lt_irrefl, decide_false, longer, decide_true]
  simp
  omega

end Graph
end ModuleAtlas
