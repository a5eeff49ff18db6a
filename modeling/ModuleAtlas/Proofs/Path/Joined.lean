import ModuleAtlas.Proofs.Path.Climb
/-!
Paths along which one goes on. Slashes in front of the rest of a path are no matter, nor is a
directory without a name (`join_join_nil`), so going on along a path from where another one leads is
going along both of them at once (`normalize_join_below`). Two paths that are normalised alike lead
to the same along any relative path, and only they do if it takes no steps upwards
(`normalize_join_congr`, `normalize_join_cancel`).
-/
namespace ModuleAtlas.Path

theorem segments_dropWhile_slash (p : Text) :
    segments (p.dropWhile (· == .scalar '/')) = segments p := by
  induction p with
  | nil => rfl
  | cons c p ih =>
    rw [List.dropWhile_cons]
    split
    · rename_i slash
      have cut : segments (c :: p) = segments p := by
        rw [eq_of_beq slash]
        exact segments_append_slash [] p
      rw [ih, cut]
    · rfl

theorem not_isAbsolute_dropWhile_slash (p : Text) : ¬ isAbsolute (p.dropWhile (· == .scalar '/')) := by
  cases rest : p.dropWhile (· == .scalar '/') with
  | nil => simp [isAbsolute]
  | cons c others =>
    have stops := List.head_dropWhile_not (· == .scalar '/') (l := p) (by simp [rest])
    simpa [rest, isAbsolute] using stops

theorem isAbsolute_append {p : Text} (some : p ≠ []) (more : Text) :
    isAbsolute (p ++ more) = isAbsolute p := by
  cases p with
  | nil => exact absurd rfl some
  | cons c p => rfl

/-- What stands behind something other than a slash is no matter for the root. -/
theorem root_append {p : Text} {c : CodePoint} (inside : c ∈ p) (other : c ≠ '/') (more : Text) :
    root (p ++ more) = root p := by
  match p with
  | [] => simp at inside
  | [a] =>
    obtain rfl : c = a := by simpa using inside
    simp [root, other]
  | [a, b] =>
    by_cases first : a = '/'
    · obtain rfl : c = b := by simpa [first, other] using inside
      simp [root, first, other]
    · simp [root, first]
  | a :: b :: d :: rest =>
    by_cases first : a = '/' <;> by_cases second : b = '/' <;> by_cases third : d = '/' <;>
      simp [root, first, second, third]

/-- Paths with one root and the same segments are normalised alike. -/
theorem normalize_congr {p q : Text} (absolute : isAbsolute p = isAbsolute q)
    (roots : root p = root q) (same : segments p = segments q) : normalize p = normalize q := by
  rw [normalize, normalize, absolute, roots, same]

/-- A directory without a name is no step. -/
theorem join_join_nil (base : Text) {p : Text} (relative : ¬ isAbsolute p) :
    join (join base []) p = join base p := by
  have nothing : ¬ isAbsolute [] := by simp [isAbsolute]
  by_cases ended : base = [] ∨ base.getLast? = some (.scalar '/')
  · simp [join, relative, nothing, ended]
  · simp [join, relative, nothing, ended]

theorem join_append {p : Text} (some : p ≠ []) (relative : ¬ isAbsolute p) (base more : Text) :
    join base (p ++ more) = join base p ++ more := by
  rw [join, join, isAbsolute_append some, if_neg relative, if_neg relative]
  split <;> simp

/-- Going on along a relative path from where another one leads is going along both. -/
theorem normalize_join_below {p : Text} (some : p ≠ []) (relative : ¬ isAbsolute p)
    (base rest : Text) :
    normalize (if (rest.dropWhile (· == .scalar '/')).isEmpty then join base p
      else join (join base p) (rest.dropWhile (· == .scalar '/'))) =
      normalize (join base (p ++ .scalar '/' :: rest)) := by
  obtain ⟨c, tail, rfl⟩ := List.exists_cons_of_ne_nil some
  have other : c ≠ '/' := by simpa [isAbsolute] using relative
  have held : c ∈ join base (c :: tail) := by
    rw [join, if_neg relative]
    split <;> simp
  have nonempty : join base (c :: tail) ≠ [] := List.ne_nil_of_mem held
  have below : segments (join base (c :: tail ++ .scalar '/' :: rest)) =
      segments (join base (c :: tail)) ++ segments rest := by
    rw [join_append some relative, segments_append_slash]
  have root_below : root (join base (c :: tail ++ .scalar '/' :: rest)) =
      root (join base (c :: tail)) := by
    rw [join_append some relative, root_append held other]
  have absolute_below : isAbsolute (join base (c :: tail ++ .scalar '/' :: rest)) =
      isAbsolute (join base (c :: tail)) := by
    rw [join_append some relative, isAbsolute_append nonempty]
  have tidy := not_isAbsolute_dropWhile_slash rest
  split
  · rename_i nothing
    have none : segments rest = [] := by
      rw [← segments_dropWhile_slash, List.isEmpty_iff.1 nothing]
      rfl
    exact normalize_congr absolute_below.symm root_below.symm (by rw [below, none, List.append_nil])
  · have extended : ∃ more, join (join base (c :: tail)) (rest.dropWhile (· == .scalar '/')) =
        join base (c :: tail) ++ more := by
      rw [join, if_neg tidy]
      split
      · exact ⟨_, rfl⟩
      · exact ⟨_, rfl⟩
    obtain ⟨more, same⟩ := extended
    refine normalize_congr ?_ ?_ ?_
    · rw [same, isAbsolute_append nonempty, absolute_below]
    · rw [same, root_append held other, root_below]
    · rw [segments_join tidy, segments_dropWhile_slash, below]

/-! ## Going on from paths that are normalised alike -/

section
variable {p : Text} (relative : ¬ isAbsolute p)
include relative

theorem isAbsolute_join_relative (base : Text) : isAbsolute (join base p) = isAbsolute base := by
  cases base with
  | nil =>
    rw [join, if_neg relative]
    simpa [isAbsolute] using relative
  | cons c base =>
    rw [join, if_neg relative]
    split <;> rfl

/-- A relative path adds nothing to the root. -/
theorem root_join_relative (base : Text) : root (join base p) = root base := by
  obtain rfl | ⟨c, tail, rfl, other⟩ : p = [] ∨ ∃ c tail, p = c :: tail ∧ c ≠ '/' := by
    cases p with
    | nil => exact .inl rfl
    | cons c tail => exact .inr ⟨c, tail, rfl, by simpa [isAbsolute] using relative⟩
  · rw [join, if_neg relative]
    split
    · rw [List.append_nil]
    · rename_i unended
      rw [Bool.or_eq_true, not_or, List.isEmpty_iff, beq_iff_eq] at unended
      have inside := List.getLast_mem unended.1
      have last : base.getLast unended.1 ≠ '/' := by
        simpa [List.getLast?_eq_some_getLast unended.1] using unended.2
      exact root_append inside last _
  · rcases base with _ | ⟨a, _ | ⟨b, _ | ⟨d, rest⟩⟩⟩
    · simp [join, relative, root, other]
    · by_cases slash : a = '/' <;> simp [join, relative, root, slash, other]
    · by_cases first : a = '/' <;> by_cases second : b = '/' <;>
        simp [join, relative, root, first, second, other]
    · rw [join, if_neg relative]
      by_cases first : a = '/' <;> by_cases second : b = '/' <;> by_cases third : d = '/' <;>
        split <;> simp [root, first, second, third]

end

/-- Walking along segments leaves some of them. -/
theorem areSegments_foldl_step {absolute : Bool} {segments walked : List Text}
    (proper : AreSegments segments) (before : AreSegments walked) :
    AreSegments (segments.foldl (step absolute) walked) := by
  induction segments generalizing walked with
  | nil => exact before
  | cons segment segments ih =>
    obtain ⟨here, later⟩ := List.forall_mem_cons.1 proper
    refine ih later ?_
    have onward : AreSegments (segment :: walked) := List.forall_mem_cons.2 ⟨here, before⟩
    cases walked with
    | nil =>
      by_cases up : segment = (['.', '.'] : Text) ∧ absolute = true
      · simp [step, up, AreSegments]
      · have on : step absolute [] segment = [segment] := by
          simp only [not_and, Bool.not_eq_true] at up
          by_cases same : segment = (['.', '.'] : Text) <;> simp [step, same, up]
        rwa [on]
    | cons top rest =>
      by_cases back : segment = (['.', '.'] : Text) ∧ top ≠ (['.', '.'] : Text)
      · have undone : step absolute (top :: rest) segment = rest := by simp [step, back]
        rw [undone]
        exact (List.forall_mem_cons.1 before).2
      · have on : step absolute (top :: rest) segment = segment :: top :: rest := by
          simp only [not_and, not_not] at back
          by_cases same : segment = (['.', '.'] : Text) <;> simp [step, same, back]
        rwa [on]

/-- What is left of the steps of a path, the last one first. -/
def walked (p : Text) : List Text := (segments p).foldl (step (isAbsolute p)) []

theorem areSegments_walked (p : Text) : AreSegments (walked p).reverse := fun segment inside =>
  areSegments_foldl_step (areSegments_segments p) (by simp [AreSegments]) segment
    (List.mem_reverse.1 inside)

theorem normalize_eq (p : Text) : normalize p = ofSegments (root p) (walked p).reverse := rfl

theorem root_cases (p : Text) : root p = [] ∨ root p = [.scalar '/'] ∨ root p = (['/', '/'] : Text) := by
  rw [root.eq_def]
  split <;> simp

theorem root_eq_nil_iff {p : Text} : root p = [] ↔ ¬ isAbsolute p := by
  refine ⟨fun none absolute => ?_, root_of_relative⟩
  match p with
  | [] => simp [isAbsolute] at absolute
  | [a] => simp_all [isAbsolute, root]
  | [a, b] => by_cases second : b = '/' <;> simp_all [isAbsolute, root]
  | a :: b :: c :: rest =>
    by_cases second : b = '/' <;> by_cases third : c = '/' <;> simp_all [isAbsolute, root]

/-- A text put together from a root and segments comes apart into them. -/
theorem root_segments_ofSegments (p : Text) {names : List Text} (proper : AreSegments names) :
    root (ofSegments (root p) names) = root p ∧ segments (ofSegments (root p) names) = names := by
  have relative := isAbsolute_ofNames proper
  have slash (t : Text) : segments (.scalar '/' :: t) = segments t := segments_append_slash [] t
  rcases root_cases p with none | one | two
  · rw [none]
    exact ⟨root_of_relative (isAbsolute_ofSegments proper), segments_ofSegments proper⟩
  · have text : ofSegments (root p) names = .scalar '/' :: ofNames names := by
      simp [one, ofSegments, ofNames]
    rw [text, one, slash, segments_ofNames proper]
    exact ⟨root_of_isRooted (isRooted_cons.2 relative), rfl⟩
  · have text : ofSegments (root p) names = .scalar '/' :: .scalar '/' :: ofNames names := by
      simp [two, ofSegments, ofNames]
    rw [text, two, slash, slash, segments_ofNames proper]
    refine ⟨?_, rfl⟩
    cases first : ofNames names with
    | nil => rfl
    | cons c rest =>
      have other : c ≠ '/' := by simpa [first, isAbsolute] using relative
      simp [root, other]

/-- Paths are normalised alike if their roots are the same and the same is left of their steps. -/
theorem normalize_eq_iff {p q : Text} :
    normalize p = normalize q ↔ root p = root q ∧ walked p = walked q := by
  rw [normalize_eq, normalize_eq]
  constructor
  · intro same
    obtain ⟨rootLeft, stepsLeft⟩ := root_segments_ofSegments p (areSegments_walked p)
    obtain ⟨rootRight, stepsRight⟩ := root_segments_ofSegments q (areSegments_walked q)
    rw [same] at rootLeft stepsLeft
    exact ⟨rootLeft.symm.trans rootRight, List.reverse_inj.1 (stepsLeft.symm.trans stepsRight)⟩
  · rintro ⟨roots, steps⟩
    rw [roots, steps]

section
variable {p : Text} (relative : ¬ isAbsolute p)
include relative

theorem walked_join (base : Text) :
    walked (join base p) = (segments p).foldl (step (isAbsolute base)) (walked base) := by
  rw [walked, isAbsolute_join_relative relative, segments_join relative, List.foldl_append, walked]

theorem normalize_join_congr {left right : Text} (same : normalize left = normalize right) :
    normalize (join left p) = normalize (join right p) := by
  obtain ⟨roots, steps⟩ := normalize_eq_iff.1 same
  have absolute : isAbsolute left = isAbsolute right := by
    rw [Bool.eq_iff_iff, ← not_iff_not, ← root_eq_nil_iff, ← root_eq_nil_iff, roots]
  rw [normalize_eq_iff, root_join_relative relative, root_join_relative relative,
    walked_join relative, walked_join relative, absolute, steps]
  exact ⟨roots, rfl⟩

theorem normalize_join_cancel (names : AreNames (segments p)) {left right : Text}
    (same : normalize (join left p) = normalize (join right p)) :
    normalize left = normalize right := by
  rw [normalize_eq_iff, root_join_relative relative, root_join_relative relative,
    walked_join relative, walked_join relative, foldl_step_of_names names,
    foldl_step_of_names names] at same
  exact normalize_eq_iff.2 ⟨same.1, List.append_cancel_left same.2⟩

end

end ModuleAtlas.Path
