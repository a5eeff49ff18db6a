import ModuleAtlas.Proofs.Path.Place
/-!
Normal forms of paths. A rooted path is normalised to the path of a place (`normalize_rooted`). A
relative path in normal form goes some steps up and then along names (`climb`): it is normalised
already (`normalize_climb`), what it leads to from a place is again a place
(`normalize_join_climb`), and whatever is taken relative to a place has this form
(`relative_eq_climb`), as has every relative path that is normalised (`IsTidy.exists_climb`).
-/
namespace ModuleAtlas

namespace Text

theorem splitOn_append_cons {sep : CodePoint} (a b : Text) :
    splitOn sep (a ++ sep :: b) = splitOn sep a ++ splitOn sep b := by
  induction a with
  | nil => simp [splitOn]
  | cons c a ih =>
    rw [List.cons_append, splitOn, splitOn, ih]
    split
    · rfl
    · cases cut : splitOn sep a with
      | nil => exact absurd cut (splitOn_ne_nil sep a)
      | cons piece pieces => rfl

end Text

namespace Path

/-! ## Segments of joined paths -/

theorem segments_append_slash (a b : Text) :
    segments (a ++ .scalar '/' :: b) = segments a ++ segments b := by
  rw [segments, Text.splitOn_append_cons, List.filter_append]
  rfl

theorem segments_join {a b : Text} (relative : ¬ isAbsolute b) :
    segments (join a b) = segments a ++ segments b := by
  rw [join, if_neg relative]
  split
  · rename_i joined
    simp only [Bool.or_eq_true, List.isEmpty_iff, beq_iff_eq] at joined
    rcases joined with rfl | slash
    · rfl
    · have whole := List.dropLast_append_getLast? (CodePoint.scalar '/') slash
      rw [← whole, List.append_assoc, List.singleton_append, segments_append_slash,
        segments_append_slash]
      simp [segments, Text.splitOn, isProper]
  · exact segments_append_slash a b

theorem areSegments_segments (p : Text) : AreSegments (segments p) := by
  intro segment inside
  obtain ⟨cut, proper⟩ := List.mem_filter.1 inside
  have facts : segment ≠ [] ∧ segment ≠ [.scalar '.'] := by simpa [isProper] using proper
  exact ⟨facts.1, Text.not_mem_of_mem_splitOn cut, facts.2⟩

theorem isName_of_isSegment {segment : Text} (proper : IsSegment segment)
    (noUp : segment ≠ (['.', '.'] : Text)) : IsName segment :=
  ⟨proper.1, proper.2.1, proper.2.2, noUp⟩

/-- What is written behind a name makes another name, unless it has a slash. -/
theorem IsName.append {name ending : Text} (named : IsName name) (plain : .scalar '/' ∉ ending) :
    IsName (name ++ ending) := by
  obtain ⟨nonempty, noSlash, noDot, noUp⟩ := named
  obtain ⟨c, rest, rfl⟩ := List.exists_cons_of_ne_nil nonempty
  refine ⟨by simp, ?_, ?_, ?_⟩
  · rw [List.mem_append]
    exact not_or.2 ⟨noSlash, plain⟩
  · intro dot
    obtain ⟨rfl, nothing⟩ : c = '.' ∧ rest ++ ending = [] := by simpa using dot
    exact noDot (by rw [(List.append_eq_nil_iff.1 nothing).1])
  · intro up
    obtain ⟨rfl, second⟩ : c = '.' ∧ rest ++ ending = [.scalar '.'] := by simpa using up
    rcases List.append_eq_singleton_iff.1 second with ⟨rfl, -⟩ | ⟨rfl, -⟩
    · exact noDot rfl
    · exact noUp rfl

/-! ## Rooted paths -/

/-- The path starts at the one root, with a single slash. -/
def IsRooted (p : Text) : Prop := isAbsolute p ∧ ¬ Text.startsWith p "//"

theorem isRooted_cons {rest : Text} : IsRooted (.scalar '/' :: rest) ↔ ¬ isAbsolute rest := by
  have absolute : isAbsolute (.scalar '/' :: rest) := rfl
  rw [IsRooted, and_iff_right absolute, not_iff_not]
  cases rest with
  | nil => simp [Text.startsWith, isAbsolute]
  | cons c rest =>
    by_cases slash : c = '/'
    · simp [Text.startsWith, isAbsolute, slash]
    · simp [Text.startsWith, isAbsolute, slash, Ne.symm slash]

theorem isRooted_cases {p : Text} (rooted : IsRooted p) :
    ∃ rest, p = .scalar '/' :: rest ∧ ¬ isAbsolute rest := by
  cases p with
  | nil => simp [IsRooted, isAbsolute] at rooted
  | cons c rest =>
    have slash : c = '/' := by simpa [isAbsolute] using rooted.1
    subst slash
    exact ⟨rest, rfl, isRooted_cons.1 rooted⟩

theorem root_of_isRooted {p : Text} (rooted : IsRooted p) : root p = [.scalar '/'] := by
  obtain ⟨rest, rfl, single⟩ := isRooted_cases rooted
  cases rest with
  | nil => rfl
  | cons c rest =>
    have other : c ≠ '/' := by simpa [isAbsolute] using single
    simp [root, other]

theorem isRooted_path {place : Place} (proper : AreNames place) : IsRooted place.path :=
  isRooted_cons.2 (isAbsolute_ofNames proper.areSegments)

theorem isRooted_join {a b : Text} (rooted : IsRooted a) (single : ¬ Text.startsWith b "//") :
    IsRooted (join a b) := by
  rw [join]
  split
  · rename_i absolute
    exact ⟨absolute, single⟩
  · rename_i relative
    obtain ⟨rest, rfl, first⟩ := isRooted_cases rooted
    split
    · cases rest with
      | nil => exact isRooted_cons.2 relative
      | cons c rest => exact isRooted_cons.2 first
    · rename_i noSlash
      cases rest with
      | nil => simp at noSlash
      | cons c rest => exact isRooted_cons.2 first

theorem not_double_of_relative {p : Text} (relative : ¬ isAbsolute p) :
    ¬ Text.startsWith p "//" := by
  cases p with
  | nil => simp [Text.startsWith]
  | cons c p =>
    have other : c ≠ '/' := by simpa [isAbsolute] using relative
    simp [Text.startsWith, Ne.symm other]

/-- Steps from the root pass places only. -/
theorem areNames_foldl_step {segments walked : List Text} (proper : AreSegments segments)
    (names : AreNames walked) : AreNames (segments.foldl (step true) walked) := by
  induction segments generalizing walked with
  | nil => exact names
  | cons segment segments ih =>
    obtain ⟨here, later⟩ := List.forall_mem_cons.1 proper
    refine ih later ?_
    by_cases up : segment = (['.', '.'] : Text)
    · subst up
      cases walked with
      | nil => simp [step, AreNames]
      | cons top rest =>
        obtain ⟨named, below⟩ := List.forall_mem_cons.1 names
        have back : step true (top :: rest) (['.', '.'] : Text) = rest := by simp [step, named.2.2.2]
        rwa [back]
    · have on : step true walked segment = segment :: walked := by simp [step, up]
      rw [on]
      exact List.forall_mem_cons.2 ⟨isName_of_isSegment here up, names⟩

/-- A rooted path is normalised to the path of a place. -/
theorem normalize_rooted {p : Text} (rooted : IsRooted p) :
    ∃ place : Place, AreNames place ∧ normalize p = place.path ∧
      place = ((segments p).foldl (step true) []).reverse := by
  refine ⟨_, ?_, ?_, rfl⟩
  · intro name inside
    have none : AreNames [] := by simp [AreNames]
    exact areNames_foldl_step (areSegments_segments p) none name (List.mem_reverse.1 inside)
  · rw [normalize, root_of_isRooted rooted, rooted.1]
    simp [ofSegments, Place.path]

/-- A rooted path that is normalised is the path of a place. -/
theorem exists_place {p : Text} (rooted : IsRooted p) (normal : normalize p = p) :
    ∃ place : Place, AreNames place ∧ p = place.path := by
  obtain ⟨place, proper, same, -⟩ := normalize_rooted rooted
  exact ⟨place, proper, normal.symm.trans same⟩

/-! ## Steps upwards and then names -/

/-- The relative path that goes so many steps up and then along names. -/
def climb (ups : Nat) (names : List Text) : Text :=
  ofSegments [] (List.replicate ups (['.', '.'] : Text) ++ names)

theorem areSegments_climb {names : List Text} (proper : AreNames names) (ups : Nat) :
    AreSegments (List.replicate ups (['.', '.'] : Text) ++ names) := by
  refine areSegments_append.2 ⟨fun segment inside => ?_, proper.areSegments⟩
  rw [List.eq_of_mem_replicate inside]
  exact ⟨by simp, by simp, by simp⟩

theorem ofSegments_eq_ofNames {segments : List Text} (proper : AreSegments segments)
    (some : segments ≠ []) : ofSegments [] segments = ofNames segments := by
  have text := ofNames_ne_nil proper some
  rw [ofNames] at text ⊢
  simp [ofSegments, text]

theorem segments_ofSegments {names : List Text} (proper : AreSegments names) :
    segments (ofSegments [] names) = names := by
  by_cases some : names = []
  · rw [some]
    rfl
  · rw [ofSegments_eq_ofNames proper some, segments_ofNames proper]

theorem isAbsolute_ofSegments {names : List Text} (proper : AreSegments names) :
    ¬ isAbsolute (ofSegments [] names) := by
  by_cases some : names = []
  · rw [some]
    simp [ofSegments, Text.joinWith, isAbsolute]
  · rw [ofSegments_eq_ofNames proper some]
    exact isAbsolute_ofNames proper

theorem root_of_relative {p : Text} (relative : ¬ isAbsolute p) : root p = [] := by
  cases p with
  | nil => rfl
  | cons c p =>
    have other : c ≠ '/' := by simpa [isAbsolute] using relative
    simp [root, other]

section
variable {names : List Text} (proper : AreNames names) (ups : Nat)
include proper

theorem isAbsolute_climb : ¬ isAbsolute (climb ups names) :=
  isAbsolute_ofSegments (areSegments_climb proper ups)

theorem segments_climb :
    segments (climb ups names) = List.replicate ups (['.', '.'] : Text) ++ names :=
  segments_ofSegments (areSegments_climb proper ups)

theorem normalize_of_segments {p : Text} (relative : ¬ isAbsolute p)
    (same : segments p = List.replicate ups (['.', '.'] : Text) ++ names) :
    normalize p = climb ups names := by
  have rises : ∀ n walked, (∀ s ∈ walked, s = (['.', '.'] : Text)) →
      (List.replicate n (['.', '.'] : Text)).foldl (step false) walked =
        List.replicate n (['.', '.'] : Text) ++ walked := by
    intro n
    induction n with
    | zero => intro walked _; rfl
    | succ n ih =>
      intro walked all
      have one : step false walked ['.', '.'] = (['.', '.'] : Text) :: walked := by
        cases walked with
        | nil => rfl
        | cons top rest => simp [step, all top (by simp)]
      rw [List.replicate_succ, List.foldl_cons, one, ih _ (by simpa using all), List.append_cons,
        ← List.replicate_succ', List.replicate_succ]
  have absolute : isAbsolute p = false := by simpa using relative
  rw [normalize, root_of_relative relative, absolute, same, List.foldl_append, rises _ _ (by simp),
    foldl_step_of_names proper]
  simp [climb]

/-- What goes some steps up and then along names is normalised. -/
theorem normalize_climb : normalize (climb ups names) = climb ups names :=
  normalize_of_segments proper ups (isAbsolute_climb proper ups) (segments_climb proper ups)

/-- From a place, steps upwards leave its first names, and names lead down from there. -/
theorem normalize_join_climb {base : Place} (properBase : AreNames base) :
    normalize (join base.path (climb ups names)) =
      Place.path (base.take (base.length - ups) ++ names) := by
  have relative := isAbsolute_climb proper ups
  have falls : ∀ n (walked : List Text), AreNames walked →
      (List.replicate n (['.', '.'] : Text)).foldl (step true) walked = walked.drop n := by
    intro n
    induction n with
    | zero => intro walked _; rfl
    | succ n ih =>
      intro walked named
      rw [List.replicate_succ, List.foldl_cons]
      cases walked with
      | nil => simpa [step] using ih [] (by simp [AreNames])
      | cons top rest =>
        obtain ⟨here, below⟩ := List.forall_mem_cons.1 named
        have one : step true (top :: rest) (['.', '.'] : Text) = rest := by simp [step, here.2.2.2]
        rw [one, ih rest below, List.drop_succ_cons]
  obtain ⟨place, -, same, steps⟩ := normalize_rooted
    (isRooted_join (isRooted_path properBase) (not_double_of_relative relative))
  rw [same, steps, segments_join relative, segments_path properBase, segments_climb proper,
    List.foldl_append, List.foldl_append, foldl_step_of_names properBase, List.append_nil,
    falls _ _ fun name inside => properBase name (List.mem_reverse.1 inside),
    foldl_step_of_names proper, List.reverse_append, List.reverse_reverse, List.drop_reverse,
    List.reverse_reverse]

end

/-- What is left of relative steps are names and, in front of them, steps upwards. -/
theorem exists_names_foldl_step {segments names : List Text} (proper : AreSegments segments)
    (named : AreNames names) (ups : Nat) : ∃ left, AreNames left ∧ ∃ n,
      segments.foldl (step false) (names ++ List.replicate ups (['.', '.'] : Text)) =
        left ++ List.replicate n (['.', '.'] : Text) := by
  induction segments generalizing names ups with
  | nil => exact ⟨names, named, ups, rfl⟩
  | cons segment segments ih =>
    obtain ⟨here, later⟩ := List.forall_mem_cons.1 proper
    rw [List.foldl_cons]
    by_cases up : segment = (['.', '.'] : Text)
    · subst up
      cases names with
      | nil =>
        have higher : step false ([] ++ List.replicate ups (['.', '.'] : Text)) ['.', '.'] =
            [] ++ List.replicate (ups + 1) (['.', '.'] : Text) := by
          cases ups <;> simp [step, List.replicate_succ]
        rw [higher]
        exact ih later named _
      | cons top rest =>
        obtain ⟨name, below⟩ := List.forall_mem_cons.1 named
        have back : step false (top :: rest ++ List.replicate ups (['.', '.'] : Text)) ['.', '.'] =
            rest ++ List.replicate ups (['.', '.'] : Text) := by simp [step, name.2.2.2]
        rw [back]
        exact ih later below _
    · have on : step false (names ++ List.replicate ups (['.', '.'] : Text)) segment =
          segment :: names ++ List.replicate ups (['.', '.'] : Text) := by simp [step, up]
      rw [on]
      exact ih later (List.forall_mem_cons.2 ⟨isName_of_isSegment here up, named⟩) _

/-- A relative path is normalised to steps upwards and then names. -/
theorem exists_climb {p : Text} (relative : ¬ isAbsolute p) :
    ∃ ups names, AreNames names ∧ normalize p = climb ups names := by
  have absolute : isAbsolute p = false := by simpa using relative
  have none : AreNames [] := by simp [AreNames]
  obtain ⟨names, named, ups, left⟩ := exists_names_foldl_step (areSegments_segments p) none 0
  refine ⟨ups, names.reverse, fun name inside => named name (List.mem_reverse.1 inside), ?_⟩
  rw [List.replicate_zero, List.append_nil] at left
  rw [normalize, absolute, root_of_relative relative, climb, left, List.reverse_append,
    List.reverse_replicate]

/-- The path is relative and normalised. -/
structure IsTidy (p : Text) : Prop where
  relative : ¬ isAbsolute p
  normal : normalize p = p

theorem isTidy_climb {names : List Text} (named : AreNames names) (ups : Nat) :
    IsTidy (climb ups names) :=
  ⟨isAbsolute_climb named ups, normalize_climb named ups⟩

/-- A tidy path goes some steps up and then along names. -/
theorem IsTidy.exists_climb {p : Text} (tidy : IsTidy p) :
    ∃ ups names, AreNames names ∧ p = climb ups names := by
  obtain ⟨ups, names, named, form⟩ := Path.exists_climb tidy.relative
  exact ⟨ups, names, named, tidy.normal.symm.trans form⟩

/-! ## What a path is relative to a place -/

/-- Two places part where their next names differ, or where one of them ends. -/
theorem between_eq (start target : List Text) :
    ∃ common rest names, start = common ++ rest ∧ target = common ++ names ∧
      between start target = List.replicate rest.length (['.', '.'] : Text) ++ names ∧
      (∀ name, rest.head? = some name → names.head? ≠ some name) := by
  induction start generalizing target with
  | nil => exact ⟨[], [], target, rfl, rfl, by simp [between], by simp⟩
  | cons s start ih =>
    cases target with
    | nil => exact ⟨[], s :: start, [], rfl, rfl, by simp [between], by simp⟩
    | cons t target =>
      by_cases same : s = t
      · subst same
        obtain ⟨common, rest, names, rfl, rfl, way, parts⟩ := ih target
        exact ⟨s :: common, rest, names, rfl, rfl, by simpa [between] using way, parts⟩
      · refine ⟨[], s :: start, t :: target, rfl, rfl, by simp [between, same], ?_⟩
        simpa using Ne.symm same

theorem relative_eq_climb (current : Text) {base place : Place} (properBase : AreNames base)
    (proper : AreNames place) :
    ∃ common rest names, base = common ++ rest ∧ place = common ++ names ∧
      relative current place.path base.path = climb rest.length names ∧
      (∀ name, rest.head? = some name → names.head? ≠ some name) := by
  obtain ⟨common, rest, names, same, same', way, parts⟩ := between_eq base place
  refine ⟨common, rest, names, same, same', ?_, parts⟩
  rw [relative, absolute_path proper, absolute_path properBase, segments_path proper,
    segments_path properBase, way]
  simp [Place.path, climb]

end Path
end ModuleAtlas
