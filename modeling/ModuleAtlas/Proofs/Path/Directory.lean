import ModuleAtlas.Graph.Tree
import Mathlib.Data.List.DropRight
import Mathlib.Logic.Function.Iterate
/-!
The directory and the last segment of a path. A relative path is its directory, slashes and its
last segment, or it has no slash at all (`dirname_cases`). So the directory of a relative path is
shorter and relative again, and a walk from directory to directory ends at the empty one.
-/
namespace ModuleAtlas.Path

/-- What stands before the last segment of a path, slashes included. -/
def head (p : Text) : Text := p.rdropWhile (· != .scalar '/')

theorem head_append_basename (p : Text) : head p ++ basename p = p :=
  List.rdropWhile_append_rtakeWhile

theorem basename_subset (p : Text) : basename p ⊆ p := by
  intro c inside
  rw [← head_append_basename p]
  exact List.mem_append_right _ inside

theorem dirname_eq (p : Text) :
    dirname p = if (head p).all (· == .scalar '/') then head p
      else (head p).rdropWhile (· == .scalar '/') := rfl

theorem no_slash_in_basename (p : Text) : .scalar '/' ∉ basename p := by
  intro inside
  have kept := List.mem_rtakeWhile_imp (p := fun c : CodePoint => c != '/') inside
  simp at kept

/-- The head of a path is empty or ends with a slash. -/
theorem head_last (p : Text) (some : head p ≠ []) : (head p).getLast some = '/' := by
  have stopped := List.rdropWhile_last_not (fun c : CodePoint => c != '/') p some
  simpa [head] using stopped

theorem head_opens (p : Text) : head p <+: p := List.rdropWhile_prefix _ p

theorem dirname_opens (p : Text) : dirname p <+: p := by
  rw [dirname_eq]
  split
  · exact head_opens p
  · exact List.IsPrefix.trans ( List.rdropWhile_prefix _ _) (head_opens p)

/-- A beginning that is not empty tells whether a path is absolute. -/
theorem isAbsolute_of_opens {d p : Text} (opens : d <+: p) (some : d ≠ []) :
    isAbsolute d = isAbsolute p := by
  obtain ⟨rest, rfl⟩ := opens
  cases d with
  | nil => exact absurd rfl some
  | cons c d => rfl

theorem head_ne_nil {p : Text} (absolute : isAbsolute p) : head p ≠ [] := by
  intro empty
  have whole : basename p = p := by simpa [empty] using head_append_basename p
  cases p with
  | nil => simp [isAbsolute] at absolute
  | cons c rest =>
    have slash : c = '/' := by simpa [isAbsolute] using absolute
    apply no_slash_in_basename (c :: rest)
    rw [whole, slash]
    exact List.mem_cons_self

/-- A path and its directory are both absolute or both relative. -/
@[simp] theorem isAbsolute_dirname (p : Text) : isAbsolute (dirname p) = isAbsolute p := by
  by_cases nothing : dirname p = []
  · rw [nothing]
    cases absolute : isAbsolute p with
    | false => rfl
    | true =>
      rw [dirname_eq] at nothing
      split at nothing
      · exact absurd nothing (head_ne_nil absolute)
      · rename_i mixed
        rw [List.rdropWhile_eq_nil_iff] at nothing
        exact absurd (List.all_eq_true.2 nothing) mixed
  · exact isAbsolute_of_opens (dirname_opens p) nothing

theorem rdropWhile_append_of_all {f : CodePoint → Bool} {a b : Text} (all : ∀ c ∈ b, f c) :
    (a ++ b).rdropWhile f = a.rdropWhile f := by
  induction b using List.reverseRecOn with
  | nil => simp
  | append_singleton b c ih =>
    rw [← List.append_assoc, List.rdropWhile_concat_pos _ _ _ (all c (by simp))]
    exact ih fun c inside => all c (by simp [inside])

/-- A path without slashes is its own last segment. -/
theorem dirname_of_no_slash {p : Text} (none : .scalar '/' ∉ p) : dirname p = [] ∧ basename p = p := by
  have empty : head p = [] := by
    rw [head, List.rdropWhile_eq_nil_iff]
    intro c inside
    simp only [bne_iff_ne]
    rintro rfl
    exact none inside
  constructor
  · simp [dirname_eq, empty]
  · simpa [empty] using head_append_basename p

/-- A text that does not end with a slash, slashes, and a segment. -/
theorem dirname_append {d b : Text} (n : Nat) (none : .scalar '/' ∉ b) (some : d ≠ [])
    (last : d.getLast some ≠ '/') :
    dirname (d ++ List.replicate (n + 1) (CodePoint.scalar '/') ++ b) = d ∧
      basename (d ++ List.replicate (n + 1) (CodePoint.scalar '/') ++ b) = b := by
  have cut : head (d ++ List.replicate (n + 1) (CodePoint.scalar '/') ++ b) =
      d ++ List.replicate (n + 1) (CodePoint.scalar '/') := by
    rw [head, rdropWhile_append_of_all, List.replicate_succ', ← List.append_assoc,
      List.rdropWhile_concat_neg _ _ _ (by simp)]
    intro c inside
    simp only [bne_iff_ne]
    rintro rfl
    exact none inside
  constructor
  · have mixed : ¬ (d ++ List.replicate (n + 1) (CodePoint.scalar '/')).all (· == .scalar '/') := by
      intro all
      have slash := List.all_eq_true.1 all (d.getLast some) (by simp)
      exact last (by simpa using slash)
    rw [dirname_eq, cut, if_neg mixed, rdropWhile_append_of_all (by simp),
      List.rdropWhile_eq_self_iff]
    intro _
    simpa using last
  · have whole := head_append_basename (d ++ List.replicate (n + 1) (CodePoint.scalar '/') ++ b)
    rw [cut] at whole
    exact List.append_cancel_left whole

/-- What stands in front of the last segment of a relative path is not slashes only. -/
theorem head_mixed {p : Text} (relative : ¬ isAbsolute p) (some : head p ≠ []) :
    ¬ (head p).all (· == .scalar '/') := by
  intro all
  apply relative
  rw [← isAbsolute_of_opens (head_opens p) some]
  cases h : head p with
  | nil => exact absurd h some
  | cons c rest =>
    rw [h, List.all_cons, Bool.and_eq_true] at all
    simpa [isAbsolute] using all.1

/-- What stands in front of the last segment ends with slashes. -/
theorem head_slashes {p : Text} (some : head p ≠ []) :
    ∃ n, (head p).rtakeWhile (· == .scalar '/') = List.replicate (n + 1) (.scalar '/') := by
  have all : ∀ c ∈ (head p).rtakeWhile (· == .scalar '/'), c = '/' := by
    intro c inside
    simpa using List.mem_rtakeWhile_imp (p := fun c : CodePoint => c == '/') inside
  have taken : (head p).rtakeWhile (· == .scalar '/') ≠ [] := by
    rw [Ne, List.rtakeWhile_eq_nil_iff]
    intro stopped
    exact stopped some (by simpa using head_last p some)
  refine ⟨((head p).rtakeWhile (· == .scalar '/')).length - 1, ?_⟩
  rw [Nat.sub_add_cancel (List.length_pos_of_ne_nil taken)]
  exact List.eq_replicate_of_mem all

/-- A relative path has no slash, or it is its directory, slashes and its last segment. -/
theorem dirname_cases {p : Text} (relative : ¬ isAbsolute p) :
    (dirname p = [] ∧ .scalar '/' ∉ p) ∨
      ∃ (n : Nat) (some : dirname p ≠ []), (dirname p).getLast some ≠ '/' ∧
        p = dirname p ++ List.replicate (n + 1) (CodePoint.scalar '/') ++ basename p := by
  by_cases empty : head p = []
  · left
    have whole : basename p = p := by simpa [empty] using head_append_basename p
    exact ⟨by simp [dirname_eq, empty], whole ▸ no_slash_in_basename p⟩
  · right
    have mixed := head_mixed relative empty
    have directory : dirname p = (head p).rdropWhile (· == .scalar '/') := by
      rw [dirname_eq, if_neg mixed]
    have some : dirname p ≠ [] := by
      intro nothing
      rw [directory, List.rdropWhile_eq_nil_iff] at nothing
      exact mixed (List.all_eq_true.2 nothing)
    obtain ⟨n, slashes⟩ := head_slashes empty
    refine ⟨n, some, ?_, ?_⟩
    · have stopped := List.rdropWhile_last_not (fun c : CodePoint => c == '/') (head p)
        (directory ▸ some)
      simpa [directory] using stopped
    · rw [directory, ← slashes, List.rdropWhile_append_rtakeWhile, head_append_basename]

/-- The directory of a relative path that has one is shorter. -/
theorem length_dirname {p : Text} (relative : ¬ isAbsolute p) (some : p ≠ []) :
    (dirname p).length < p.length := by
  rcases dirname_cases relative with ⟨nothing, _⟩ | ⟨n, _, _, whole⟩
  · simpa [nothing] using List.length_pos_of_ne_nil some
  · have sizes := congrArg List.length whole
    simp only [List.length_append, List.length_replicate] at sizes
    omega

end ModuleAtlas.Path
