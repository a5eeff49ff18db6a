import ModuleAtlas.Proofs.Outcome
import ModuleAtlas.Proofs.Path.Joined
import ModuleAtlas.Resolution
/-!
The targets of imports are named as the files of a project are. A specifier stands for a place, and
its target is the one normalised path that leads from the project root to this place, to the file
with an extension there or to an index file below (`IsTarget`). So a target is the name of a file
exactly if it leads to this file, whatever way the specifier took (`targets_canonical`).
-/
namespace ModuleAtlas
open ModuleAtlas.Path

namespace Path

/-- The path of an entry is that of its directory and its name. -/
theorem join_path {place : Place} (proper : AreNames place) {name : Text} (named : IsName name) :
    join place.path name = Place.path (place ++ [name]) := by
  have single : AreSegments [name] := AreNames.areSegments (by simpa [AreNames] using named)
  have relative : ¬ isAbsolute name := isAbsolute_ofNames single
  rw [join, if_neg relative]
  by_cases top : place = []
  · subst top
    rfl
  · have nonempty : place.path.isEmpty = false := rfl
    have ending := getLast?_path proper top
    rw [nonempty, if_neg (by simpa using ending), Place.path, Place.path,
      Text.joinWith_append_singleton top]
    rfl

/-- What is written behind segments belongs to the last of them. -/
theorem ofNames_append (names : List Text) (last ending : Text) :
    ofNames (names ++ [last]) ++ ending = ofNames (names ++ [last ++ ending]) := by
  by_cases some : names = []
  · simp [some, ofNames, Text.joinWith]
  · rw [ofNames, ofNames, Text.joinWith_append_singleton some, Text.joinWith_append_singleton some]
    simp

theorem climb_append {names : List Text} {last : Text} (proper : AreNames (names ++ [last]))
    {ending : Text} (named : IsName (last ++ ending)) (ups : Nat) :
    climb ups (names ++ [last]) ++ ending = climb ups (names ++ [last ++ ending]) := by
  have other : AreNames (names ++ [last ++ ending]) :=
    areNames_append.2 ⟨(areNames_append.1 proper).1, by simpa [AreNames] using named⟩
  rw [climb, climb, ofSegments_eq_ofNames (areSegments_climb proper ups) (by simp),
    ofSegments_eq_ofNames (areSegments_climb other ups) (by simp), ← List.append_assoc,
    ← List.append_assoc, ofNames_append]

end Path

namespace Resolution

/-! ## Specifiers -/

section
variable {root directory : Text} {settings : Settings}

theorem isRooted_aliasBase (rooted : IsRooted root)
    (start : ¬ Text.startsWith settings.baseUrl "//") {target : Text}
    (single : ¬ Text.startsWith target "//") : IsRooted (aliasBase settings root target) := by
  rw [aliasBase]
  split
  · rename_i absolute
    exact ⟨absolute, single⟩
  · split
    · exact isRooted_join rooted single
    · exact isRooted_join (isRooted_join rooted start) single

/-- A specifier stands for a place. -/
theorem exists_place_resolve (specifier : Text) (rooted : IsRooted root) (inside : IsRooted directory)
    (start : ¬ Text.startsWith settings.baseUrl "//")
    (aliased : ∀ target ∈ settings.aliases.values, ¬ Text.startsWith target "//") :
    ∃ place : Place, AreNames place ∧ resolve specifier settings root directory = place.path := by
  have normal : ∀ {p}, IsRooted p → ∃ place : Place, AreNames place ∧ normalize p = place.path :=
    fun rooted =>
      have ⟨place, proper, same, _⟩ := normalize_rooted rooted
      ⟨place, proper, same⟩
  have tidy : ∀ t : Text, ¬ Text.startsWith (t.dropWhile (· == .scalar '/')) "//" := fun t =>
    not_double_of_relative (not_isAbsolute_dropWhile_slash t)
  have bare : specifier.head? ≠ some (.scalar '/') → ¬ Text.startsWith specifier "//" := fun other =>
    not_double_of_relative (by simpa [isAbsolute] using other)
  rw [resolve]
  split
  · rename_i dot
    refine normal (isRooted_join inside (bare ?_))
    rw [beq_iff_eq] at dot
    simp [dot]
  split
  · exact normal (isRooted_join rooted (tidy _))
  rename_i noSlash
  have other : specifier.head? ≠ some (.scalar '/') := by simpa using noSlash
  split
  · rename_i key _
    have single : ¬ Text.startsWith ((settings.aliases.get? key).getD []) "//" := by
      cases found : settings.aliases.get? key with
      | none => simp [Text.startsWith]
      | some target =>
        exact aliased target (List.mem_map_of_mem (Table.get?_eq_some_iff.1 found))
    have base := isRooted_aliasBase rooted start single
    dsimp only
    split
    · exact normal base
    · exact normal (isRooted_join base (tidy _))
  · split
    · exact normal (isRooted_join rooted (bare other))
    · exact normal (isRooted_join (isRooted_join rooted start) (bare other))

end

/-! ## Completed paths -/

theorem mem_of_firstFile? {files : FileSystem} {root p : Text} {paths : List Text}
    (found : firstFile? files root paths = .ok (some p)) : p ∈ paths := by
  induction paths with
  | nil => cases found
  | cons first paths ih =>
    rw [firstFile?] at found
    split at found
    · cases found
    · cases found
      exact List.mem_cons_self
    · exact List.mem_cons_of_mem _ (ih found)

theorem mem_of_complete {files : FileSystem} {root p target : Text} {extensions : List Text}
    (found : complete files root extensions p = .ok target) : target ∈ candidates extensions p := by
  obtain ⟨first, run, rfl⟩ := map_eq_ok.1 found
  cases first with
  | none => simp [candidates]
  | some q => exact mem_of_firstFile? run

/-- The extensions of source files end names. -/
theorem isName_append {extension name : Text} (known : extension ∈ Discovery.sourceExtensions)
    (proper : .scalar '/' ∉ name) : IsName (name ++ extension) := by
  have facts : ∀ extension ∈ Discovery.sourceExtensions,
      .scalar '/' ∉ extension ∧ 3 ≤ extension.length := by
    decide
  obtain ⟨noSlash, long⟩ := facts extension known
  refine ⟨?_, ?_, ?_, ?_⟩
  · intro same
    have size := congrArg List.length same
    simp only [List.length_append, List.length_nil] at size
    omega
  · simp [proper, noSlash]
  · intro same
    have size := congrArg List.length same
    simp only [List.length_append, List.length_singleton] at size
    omega
  · intro same
    have size := congrArg List.length same
    simp only [List.length_append, List.length_cons, List.length_nil] at size
    omega

/-- Steps upwards alone name a directory. -/
theorem namesDirectory_climb (ups : Nat) : namesDirectory (climb ups []) := by
  cases ups with
  | zero => rfl
  | succ ups =>
    have none : AreNames [] := by simp [AreNames]
    have proper := areSegments_climb none (ups + 1)
    rw [List.append_nil, List.replicate_succ'] at proper
    have last := (dirname_ofNames proper).2
    rw [namesDirectory, climb, List.append_nil, List.replicate_succ',
      ofSegments_eq_ofNames proper (by simp), last]
    rfl

/-! ## Names that lead from one place to another -/

/-- The text names a place from a base in the one normal way: up to the last place that both have
above them, and down from there. What is left of the base is no beginning of the names below. -/
def Names (base : Place) (target : Text) (place : Place) : Prop :=
  ∃ common rest names, base = common ++ rest ∧ place = common ++ names ∧ AreNames names ∧
    target = climb rest.length names ∧ ∀ below, below ≠ [] → names = rest ++ below → rest = []

/-- Names that agree up to their last one with names that part from the rest have it as no
beginning of theirs. -/
theorem rest_eq_nil {rest names others below : List Text}
    (parts : ∀ name, rest.head? = some name → names.head? ≠ some name)
    (opens : others.dropLast <+: names) (some : below ≠ []) (same : others = rest ++ below) :
    rest = [] := by
  cases rest with
  | nil => rfl
  | cons first rest =>
    rw [same, List.dropLast_append_of_ne_nil some] at opens
    obtain ⟨more, rfl⟩ := opens
    exact absurd rfl (parts first rfl)

section
variable {base place : Place} {target : Text} (properBase : AreNames base)
include properBase

theorem normalize_of_names (named : Names base target place) :
    ¬ isAbsolute target ∧ normalize target = target ∧
      normalize (join base.path target) = place.path := by
  obtain ⟨common, rest, names, rfl, rfl, proper, rfl, -⟩ := named
  refine ⟨isAbsolute_climb proper _, normalize_climb proper _, ?_⟩
  rw [normalize_join_climb proper _ properBase]
  simp

/-- A target is the name of a place below the base exactly if it leads there. -/
theorem eq_ofNames_iff (named : Names base target place) {below : List Text} (some : below ≠ [])
    (properBelow : AreNames below) : target = ofNames below ↔ place = base ++ below := by
  obtain ⟨common, rest, names, rfl, rfl, proper, rfl, apart⟩ := named
  have plain : ofNames below = climb 0 below :=
    (ofSegments_eq_ofNames properBelow.areSegments some).symm
  rw [plain, List.append_assoc, List.append_cancel_left_eq]
  constructor
  · intro same
    have segments := congrArg segments same
    rw [segments_climb proper, segments_climb properBelow] at segments
    cases rest with
    | nil => simpa using segments
    | cons first rest =>
      have up : (['.', '.'] : Text) ∈ below := by
        rw [List.replicate_zero, List.nil_append] at segments
        rw [← segments]
        simp
      exact absurd rfl (properBelow _ up).2.2.2
  · intro same
    obtain rfl := apart below some same
    rw [same]
    rfl

end

section
variable {common rest names : Place} {extension : Text}
  (parts : ∀ name, rest.head? = some name → names.head? ≠ some name)
  (known : extension ∈ Discovery.sourceExtensions)
include parts

theorem names_climb (proper : AreNames names) :
    Names (common ++ rest) (climb rest.length names) (common ++ names) :=
  ⟨common, rest, names, rfl, rfl, proper, rfl, fun _ some same =>
    rest_eq_nil parts (List.dropLast_prefix names) some same⟩

include known

/-- An extension behind a way names the place with the extension. -/
theorem names_extended (proper : AreNames (common ++ names)) (below : names ≠ []) :
    ∃ reached, AreNames reached ∧
      Names (common ++ rest) (climb rest.length names ++ extension) reached ∧
      reached.path = Place.path (common ++ names) ++ extension := by
  obtain ⟨properCommon, properNames⟩ := areNames_append.1 proper
  obtain ⟨front, last, rfl⟩ := (List.eq_nil_or_concat names).resolve_left below
  rw [List.concat_eq_append] at *
  obtain ⟨properFront, properLast⟩ := areNames_append.1 properNames
  have named : IsName (last ++ extension) := isName_append known (properLast last (by simp)).2.1
  have properAll : AreNames (front ++ [last ++ extension]) :=
    areNames_append.2 ⟨properFront, by simpa [AreNames] using named⟩
  refine ⟨_, areNames_append.2 ⟨properCommon, properAll⟩, ⟨common, rest, _, rfl, rfl, properAll,
    climb_append properNames named _, ?_⟩, ?_⟩
  · exact fun below some same => rest_eq_nil parts (by simp) some same
  · have ended := ofNames_append (common ++ front) last extension
    rw [Place.path, Place.path, ← List.append_assoc, ← List.append_assoc]
    exact (congrArg (.scalar '/' :: ·) ended).symm

/-- An index file below a way is one below the place. -/
theorem names_index (proper : AreNames (common ++ names)) :
    ∃ reached, AreNames reached ∧
      Names (common ++ rest)
        (normalize (join (climb rest.length names) ("index" ++ extension))) reached ∧
      reached.path = join (Place.path (common ++ names)) ("index" ++ extension) := by
  obtain ⟨properCommon, properNames⟩ := areNames_append.1 proper
  have named : IsName (("index" : Text) ++ extension) := isName_append known (by decide)
  have properLast : AreNames [("index" : Text) ++ extension] := by simpa [AreNames] using named
  have properAll := areNames_append.2 ⟨properNames, properLast⟩
  have relative : ¬ isAbsolute (("index" : Text) ++ extension) :=
    isAbsolute_ofNames properLast.areSegments
  refine ⟨_, areNames_append.2 ⟨properCommon, properAll⟩, ⟨common, rest, _, rfl, rfl, properAll,
    ?_, ?_⟩, ?_⟩
  · apply normalize_of_segments properAll
    · rw [isAbsolute_join_relative relative]
      exact isAbsolute_climb properNames _
    · rw [segments_join relative, segments_climb properNames, List.append_assoc]
      exact congrArg _ (congrArg _ (segments_ofNames properLast.areSegments))
  · exact fun below some same => rest_eq_nil parts (by simp) some same
  · rw [join_path proper named, List.append_assoc]

end

section
variable {base place : Place} (properBase : AreNames base) (proper : AreNames place)
include properBase proper

/-- Whatever completes the path of a place relative to the base names the place, the file with an
extension there or an index file below. -/
theorem names_of_candidates (current : Text) {target : Text} (candidate : target ∈
    candidates Discovery.sourceExtensions (relative current place.path base.path)) :
    ∃ reached, AreNames reached ∧ Names base target reached ∧ (reached = place ∨
      ∃ extension ∈ Discovery.sourceExtensions, reached.path = place.path ++ extension ∨
        reached.path = join place.path ("index" ++ extension)) := by
  obtain ⟨common, rest, names, rfl, rfl, way, parts⟩ := relative_eq_climb current properBase proper
  rw [way, candidates, List.mem_append, List.mem_cons] at candidate
  rcases candidate with (rfl | extended) | index
  · exact ⟨_, proper, names_climb parts (areNames_append.1 proper).2, .inl rfl⟩
  · split at extended
    · simp at extended
    rename_i noDirectory
    obtain ⟨extension, known, rfl⟩ := List.mem_map.1 extended
    -- Only names below the last common place make this a file, so there is a last one.
    have below : names ≠ [] := by
      rintro rfl
      exact noDirectory (namesDirectory_climb _)
    obtain ⟨reached, properReached, named, leads⟩ := names_extended parts known proper below
    exact ⟨reached, properReached, named, .inr ⟨extension, known, .inl leads⟩⟩
  · obtain ⟨extension, known, rfl⟩ := List.mem_map.1 index
    obtain ⟨reached, properReached, named, leads⟩ := names_index parts known proper
    exact ⟨reached, properReached, named, .inr ⟨extension, known, .inr leads⟩⟩

end

/-! ## Targets -/

/-- The path is normalised and leads to something below the root. -/
def IsBelow (root p : Text) : Prop :=
  normalize p = p ∧ ∃ rest, rest ≠ [] ∧ ¬ isAbsolute rest ∧ p = join root rest

/-- The target stands for a path from the file system root, as seen from the project root. -/
structure IsTarget (current root path target : Text) : Prop where
  absolute : isAbsolute path
  normal : normalize path = path
  relative : ¬ isAbsolute target
  canonical : normalize target = target
  leads : normalize (join root target) = path ∨ ∃ extension ∈ Discovery.sourceExtensions,
    normalize (join root target) = path ++ extension ∨
      normalize (join root target) = join path ("index" ++ extension)
  names : ∀ file, IsBelow root file →
    (target = Path.relative current file root ↔ normalize (join root target) = file)

theorem exists_names {base : Place} (properBase : AreNames base) {file : Text}
    (below : IsBelow base.path file) :
    ∃ names, names ≠ [] ∧ AreNames (base ++ names) ∧ file = Place.path (base ++ names) := by
  obtain ⟨normal, rest, some, relative, rfl⟩ := below
  have rooted := isRooted_join (isRooted_path properBase) (not_double_of_relative relative)
  obtain ⟨place, proper, same⟩ := exists_place rooted normal
  have parts : place = base ++ segments rest := by
    rw [← segments_path proper, ← same, segments_join relative, segments_path properBase]
  subst parts
  refine ⟨segments rest, fun nothing => ?_, proper, same⟩
  -- Without a further segment the path would be that of the base and so not longer.
  rw [nothing, List.append_nil] at same
  have longer : base.path.length < (join base.path rest).length := by
    have more := List.length_pos_iff.2 some
    rw [join, if_neg relative]
    split <;> simp only [List.length_append, List.length_cons] <;> omega
  rw [same] at longer
  exact absurd longer (Nat.lt_irrefl _)

theorem isTarget_of_complete (files : FileSystem) (current : Text) {base place : Place}
    (properBase : AreNames base) (proper : AreNames place) {target : Text}
    (found : complete files base.path Discovery.sourceExtensions
      (relative current place.path base.path) = .ok target) :
    IsTarget current base.path place.path target := by
  obtain ⟨reached, properReached, named, completed⟩ :=
    names_of_candidates properBase proper current (mem_of_complete found)
  obtain ⟨relative, canonical, leads⟩ := normalize_of_names properBase named
  refine ⟨rfl, normalize_path proper, relative, canonical, ?_, fun file below => ?_⟩
  · rw [leads]
    exact completed.imp_left (congrArg Place.path)
  · obtain ⟨names, some, properFile, rfl⟩ := exists_names properBase below
    rw [relative_path current properFile some, leads,
      eq_ofNames_iff properBase named some (areNames_append.1 properFile).2]
    constructor
    · exact congrArg Place.path
    · intro same
      rw [← segments_path properReached, same, segments_path properFile]

theorem targets_eq {files : FileSystem} {content directory root : Text} {settings : Settings}
    {found : List Text} (normal : normalize root = root) (absolute : isAbsolute root)
    (run : targets files content directory root settings = .ok found) :
    List.Forall₂ (fun specifier target => complete files root Discovery.sourceExtensions
        (relative (Place.path files.current) (resolve specifier settings root (join root directory))
          root) = .ok target)
      (ownSpecifiers content settings) found := by
  have same : Path.absolute (Place.path files.current) root = root := by
    rw [Path.absolute, if_pos absolute, normal]
  have each := forall₂_of_mapM run
  rw [same] at each
  exact each

/-- The targets of the imports of a source text name files as the files of a project are named. Each
kept specifier stands for a normalised path, its target is normalised and leads to this path or to
what completes it, it is the name of a file exactly if it leads to this file, and other specifiers
for the same path have the same target, in whatever source text, directory and settings. -/
theorem targets_canonical (files : FileSystem) {content directory root : Text} {settings : Settings}
    {found : List Text} (rooted : IsRooted root) (normal : normalize root = root)
    (inside : ¬ Text.startsWith directory "//") (start : ¬ Text.startsWith settings.baseUrl "//")
    (aliased : ∀ target ∈ settings.aliases.values, ¬ Text.startsWith target "//")
    (run : targets files content directory root settings = .ok found) :
    List.Forall₂ (fun specifier target =>
      let path := resolve specifier settings root (join root directory)
      IsTarget (Place.path files.current) root path target ∧
        ∀ content' directory' settings' found',
          targets files content' directory' root settings' = .ok found' →
            ∀ pair ∈ (ownSpecifiers content' settings').zip found',
              resolve pair.1 settings' root (join root directory') = path → pair.2 = target)
      (ownSpecifiers content settings) found := by
  refine (targets_eq normal rooted.1 run).imp fun specifier target complete => ⟨?_, ?_⟩
  · obtain ⟨base, properBase, rfl⟩ := exists_place rooted normal
    obtain ⟨place, proper, same⟩ := exists_place_resolve specifier rooted
      (isRooted_join rooted inside) start aliased
    rw [same] at complete ⊢
    exact isTarget_of_complete files _ properBase proper complete
  · intro content' directory' settings' found' run' pair paired same
    have complete' := (List.forall₂_iff_zip.1 (targets_eq normal rooted.1 run')).2 paired
    rw [same, complete] at complete'
    exact (Except.ok.inj complete').symm

/-- A project with an index file in `lib`. -/
def indexed : FileSystem where
  tree :=
    { entries := [(["app"], .directory), (["app", "lib"], .directory),
        (["app", "lib", "index.ts"], .file [])]
      distinct := by decide
      named := by decide
      housed := by decide }

/-- Settings with an alias of the project root. -/
def tilde : Settings := { aliases := Table.ofList [("~", "/app")] }

/-- Two ways to the index file, and one out of the project. -/
def threeWays : Text :=
  "import a from '../lib'\nimport b from '~/lib'\nimport c from 'lib/../../other'"

theorem threeWays_canonical :
    targets indexed threeWays "src" "/app" tilde = .ok ["lib/index.ts", "lib/index.ts", "../other"] ∧
      List.Forall₂ (fun specifier target =>
        IsTarget (Place.path []) "/app" (resolve specifier tilde "/app" (join "/app" "src")) target)
        (ownSpecifiers threeWays tilde) ["lib/index.ts", "lib/index.ts", "../other"] := by
  have run : targets indexed threeWays "src" "/app" tilde =
      .ok ["lib/index.ts", "lib/index.ts", "../other"] := by decide +kernel
  refine ⟨run, (targets_canonical indexed ?_ rfl (by decide) (by decide) (by decide) run).imp
    fun _ _ => And.left⟩
  exact ⟨rfl, by decide⟩

end Resolution
end ModuleAtlas
