import ModuleAtlas.Proofs.FileTree.Linkless
import ModuleAtlas.Proofs.Resolution.Completion
import ModuleAtlas.Proofs.Resolution.Target
/-!
Completed paths stay completed. In a tree without links a normalised path is completed to a normalised
one, which is completed to itself. A file that has been found is still found when files have been added,
as long as none of these stands where a path leads that is preferred to it (`completion_stable`): the
files that are preferred stand in directories on the way to the one that has been found, so they have
been looked for where they would be.
-/
namespace ModuleAtlas.Resolution
open FileTree ModuleAtlas.Path
variable {p extension : Text}

/-! ## Paths of candidates -/

/-- A tidy path that does not name a directory ends with a name, and whatever is written behind it
belongs to the name. -/
theorem exists_last_segment (tidy : IsTidy p) (noDirectory : ¬ namesDirectory p) :
    ∃ front last, IsName last ∧ segments p = front ++ [last] ∧ ∀ extension, .scalar '/' ∉ extension →
      IsTidy (p ++ extension) ∧ segments (p ++ extension) = front ++ [last ++ extension] := by
  obtain ⟨ups, names, named, rfl⟩ := tidy.exists_climb
  rcases List.eq_nil_or_concat names with rfl | ⟨front, last, rfl⟩
  · exact absurd (namesDirectory_climb ups) noDirectory
  rw [List.concat_eq_append] at *
  have properLast : IsName last := named last (by simp)
  refine ⟨List.replicate ups (['.', '.'] : Text) ++ front, last, properLast, ?_,
    fun extension plain => ?_⟩
  · rw [segments_climb named, List.append_assoc]
  · have longer := properLast.append plain
    have all : AreNames (front ++ [last ++ extension]) :=
      areNames_append.2 ⟨(areNames_append.1 named).1, by simpa [AreNames] using longer⟩
    rw [climb_append named longer]
    exact ⟨isTidy_climb all ups, by rw [segments_climb all, List.append_assoc]⟩

theorem isName_index : IsName "index" := ⟨by decide, by decide, by decide, by decide⟩

/-- An index file has one more name than the path that it completes. -/
theorem isTidy_index (tidy : IsTidy p) (plain : .scalar '/' ∉ extension) :
    IsTidy (normalize (join p ("index" ++ extension))) ∧
      segments (normalize (join p ("index" ++ extension))) =
        segments p ++ [("index" : Text) ++ extension] := by
  obtain ⟨ups, names, named, rfl⟩ := tidy.exists_climb
  have last : AreNames [("index" : Text) ++ extension] := by
    simpa [AreNames] using isName_index.append plain
  have all : AreNames (names ++ [("index" : Text) ++ extension]) := areNames_append.2 ⟨named, last⟩
  have relative : ¬ isAbsolute (("index" : Text) ++ extension) := isAbsolute_ofNames last.areSegments
  have parts : segments (join (climb ups names) ("index" ++ extension)) =
      List.replicate ups (['.', '.'] : Text) ++
        (names ++ [("index" : Text) ++ extension]) := by
    rw [segments_join relative, segments_climb named, List.append_assoc]
    exact congrArg _ (congrArg _ (segments_ofNames last.areSegments))
  have form := normalize_of_segments all ups (p := join (climb ups names) ("index" ++ extension))
    (by rw [isAbsolute_join_relative relative]; exact isAbsolute_climb named ups) parts
  rw [form, segments_climb all, segments_climb named, List.append_assoc]
  exact ⟨isTidy_climb all ups, rfl⟩

/-! ## The first file -/

section
variable {files : FileSystem} {root r : Text} {paths : List Text}

theorem firstFile?_eq_none_iff : firstFile? files root paths = .ok none ↔
    ∀ q ∈ paths, files.isFile (child root q) = .ok false := by
  induction paths with
  | nil => simp [firstFile?]
  | cons first paths ih =>
    rw [firstFile?, List.forall_mem_cons, ← ih]
    cases files.isFile (child root first) with
    | error fault => simp
    | ok there => cases there <;> simp

/-- A file is the first one exactly if there is none before. -/
theorem firstFile?_eq_some_iff : firstFile? files root paths = .ok (some r) ↔
    r ∈ paths ∧ files.isFile (child root r) = .ok true ∧
      ∀ q ∈ paths.takeWhile (· != r), files.isFile (child root q) = .ok false := by
  induction paths with
  | nil => simp [firstFile?]
  | cons first paths ih =>
    rw [firstFile?]
    by_cases same : first = r
    · subst same
      cases check : files.isFile (child root first) with
      | error fault => simp
      | ok there => cases there <;> simp [ih, check]
    · rw [List.takeWhile_cons_of_pos (by simpa using same), List.forall_mem_cons, List.mem_cons,
        or_iff_right (Ne.symm same)]
      cases files.isFile (child root first) with
      | error fault => simp
      | ok there => cases there <;> simp [ih, same]

end

/-! ## Where candidates stand -/

section
variable {files : FileSystem} {root q r : Text} {front : List Text}

theorem startOf_child_of_relative (relative : ¬ isAbsolute q) :
    startOf files.current (child root q) = startOf files.current root := by
  rw [startOf, startOf, child, clean,
    FileSystem.isAbsolute_ofSegments_root _ (areSegments_segments _),
    isAbsolute_join_relative relative]

theorem steps_child (relative : ¬ isAbsolute q) : steps (child root q) =
    if segments root ++ segments q = [] then [[.scalar '.']] else segments root ++ segments q := by
  rw [child, clean, FileSystem.steps_ofSegments _ (areSegments_segments _), segments_join relative]

/-- Where the path of a name leads somewhere, what stands before the name leads to a directory. -/
theorem exists_directory (linkless : files.tree.IsLinkless) (relative : ¬ isAbsolute r) {name : Text}
    (parts : segments r = front ++ [name]) (there : files.isFile (child root r) = .ok true) :
    ∃ d, Leads files.tree true linkLimit (startOf files.current root) (segments root ++ front) d
      .directory := by
  obtain ⟨place, bytes, located⟩ := FileSystem.isFile_eq_true_iff.1 there
  obtain ⟨-, -, leads⟩ := FileSystem.locate_eq_entry_iff.1 located
  rw [startOf_child_of_relative relative, steps_child relative, parts, if_neg (by simp),
    ← List.append_assoc] at leads
  exact leads.front linkless (by simp)

theorem isHoused_of_name {d : Place} {name : Text} (relative : ¬ isAbsolute q) (named : IsName name)
    (parts : segments q = front ++ [name]) (leads : Leads files.tree true linkLimit
      (startOf files.current root) (segments root ++ front) d .directory) :
    files.IsHoused (child root q) := by
  refine ⟨_, d, by rwa [startOf_child_of_relative relative], .inr ⟨name, named, ?_⟩⟩
  rw [steps_child relative, parts, if_neg (by simp), List.append_assoc]

theorem isHoused_of_directory {d : Place} (relative : ¬ isAbsolute q)
    (leads : Leads files.tree true linkLimit (startOf files.current root)
      (segments root ++ segments q) d .directory) : files.IsHoused (child root q) := by
  refine ⟨_, d, ?_, .inl rfl⟩
  rw [startOf_child_of_relative relative, steps_child relative]
  split
  · rename_i nothing
    rw [nothing] at leads
    cases leads with
    | here found => exact .dot (by rw [isDirectoryAt, found]; rfl) (.here found)
  · exact leads

end

/-- The paths that are preferred to one of those that a path can mean. -/
def preferred (extensions : List Text) (p r : Text) : List Text :=
  (candidates extensions p).takeWhile (· != r)

theorem mem_of_mem_takeWhile_append {xs ys : List Text} {q r : Text} (inside : r ∈ xs)
    (before : q ∈ (xs ++ ys).takeWhile (· != r)) : q ∈ xs := by
  induction xs with
  | nil => cases inside
  | cons x xs ih =>
    rw [List.cons_append] at before
    by_cases same : x = r
    · rw [List.takeWhile_cons_of_neg (by simpa using same)] at before
      cases before
    · rw [List.takeWhile_cons_of_pos (by simpa using same)] at before
      rcases List.mem_cons.1 before with rfl | later
      · exact List.mem_cons_self
      · exact List.mem_cons_of_mem _
          (ih ((List.mem_cons.1 inside).resolve_left (Ne.symm same)) later)

section
variable {files : FileSystem} {root q r : Text} {extensions : List Text}
  (linkless : files.tree.IsLinkless) (tidy : IsTidy p)
  (plain : ∀ extension ∈ extensions, .scalar '/' ∉ extension)
include linkless tidy plain

/-- What is preferred to a file with an extension stands beside it. -/
theorem isHoused_of_extended (noDirectory : ¬ namesDirectory p) (known : extension ∈ extensions)
    (there : files.isFile (child root (p ++ extension)) = .ok true)
    (listed : q ∈ p :: extensions.map (p ++ ·)) : files.IsHoused (child root q) := by
  obtain ⟨front, last, named, parts, extended⟩ := exists_last_segment tidy noDirectory
  obtain ⟨own, ownParts⟩ := extended extension (plain extension known)
  obtain ⟨d, leads⟩ := exists_directory linkless own.relative ownParts there
  rcases List.mem_cons.1 listed with rfl | other
  · exact isHoused_of_name tidy.relative named parts leads
  · obtain ⟨ending, alsoKnown, rfl⟩ := List.mem_map.1 other
    obtain ⟨beside, besideParts⟩ := extended ending (plain ending alsoKnown)
    exact isHoused_of_name beside.relative (named.append (plain ending alsoKnown)) besideParts leads

/-- What is preferred to an index file is its directory, or stands beside one of them. -/
theorem isHoused_of_index (known : extension ∈ extensions)
    (there : files.isFile (child root (normalize (join p ("index" ++ extension)))) = .ok true)
    (listed : q ∈ candidates extensions p) : files.IsHoused (child root q) := by
  obtain ⟨own, ownParts⟩ := isTidy_index tidy (plain extension known)
  obtain ⟨d, leads⟩ := exists_directory linkless own.relative ownParts there
  rw [candidates, List.mem_append, List.mem_cons] at listed
  rcases listed with (rfl | extended) | index
  · exact isHoused_of_directory tidy.relative leads
  · split at extended
    · cases extended
    rename_i noDirectory
    obtain ⟨ending, alsoKnown, rfl⟩ := List.mem_map.1 extended
    obtain ⟨front, last, named, parts, extended⟩ := exists_last_segment tidy noDirectory
    obtain ⟨beside, besideParts⟩ := extended ending (plain ending alsoKnown)
    rw [parts, ← List.append_assoc] at leads
    obtain ⟨above, leads⟩ := leads.front linkless (by simp)
    exact isHoused_of_name beside.relative (named.append (plain ending alsoKnown)) besideParts leads
  · obtain ⟨ending, alsoKnown, rfl⟩ := List.mem_map.1 index
    obtain ⟨beside, besideParts⟩ := isTidy_index tidy (plain ending alsoKnown)
    exact isHoused_of_name beside.relative (isName_index.append (plain ending alsoKnown)) besideParts
      leads

/-- What is preferred to a file that is there stands in a directory, or is one. -/
theorem isHoused_of_preferred (candidate : r ∈ candidates extensions p)
    (there : files.isFile (child root r) = .ok true) (before : q ∈ preferred extensions p r) :
    files.IsHoused (child root q) := by
  have listed : q ∈ candidates extensions p := (List.takeWhile_prefix _).subset before
  rw [preferred, candidates] at before
  rw [candidates, List.mem_append] at candidate
  rcases candidate with first | index
  · have listed := mem_of_mem_takeWhile_append first before
    rcases List.mem_cons.1 first with rfl | extended
    · simp at before
    · split at extended
      · cases extended
      rename_i noDirectory
      obtain ⟨extension, known, rfl⟩ := List.mem_map.1 extended
      rw [if_neg noDirectory] at listed
      exact isHoused_of_extended linkless tidy plain noDirectory known there listed
  · obtain ⟨extension, known, rfl⟩ := List.mem_map.1 index
    exact isHoused_of_index linkless tidy plain known there listed

end

/-! ## What a path is completed to -/

theorem isTidy_of_candidate {extensions : List Text} {r : Text} (tidy : IsTidy p)
    (plain : ∀ extension ∈ extensions, .scalar '/' ∉ extension)
    (candidate : r ∈ candidates extensions p) :
    IsTidy r := by
  rw [candidates, List.mem_append, List.mem_cons] at candidate
  rcases candidate with (rfl | extended) | index
  · exact tidy
  · split at extended
    · cases extended
    rename_i noDirectory
    obtain ⟨extension, known, rfl⟩ := List.mem_map.1 extended
    obtain ⟨front, last, -, -, longer⟩ := exists_last_segment tidy noDirectory
    exact (longer extension (plain extension known)).1
  · obtain ⟨extension, known, rfl⟩ := List.mem_map.1 index
    exact (isTidy_index tidy (plain extension known)).1

/-- The tree has got further files, with directories on the way to them, and none of the files stands
where one of the paths leads. -/
structure GrowsBeside (files : FileSystem) (after : FileTree) (paths : List Text) : Prop where
  grows : files.tree.Grows after
  linkless : after.IsLinkless
  beside : ∀ place bytes, (place, Entry.file bytes) ∈ after.entries →
    (place, Entry.file bytes) ∈ files.tree.entries ∨ ∀ q ∈ paths, files.placeOf q ≠ place

theorem GrowsBeside.lookup? {files : FileSystem} {after : FileTree} {paths : List Text} {q : Text}
    (grown : GrowsBeside files after paths) (inside : q ∈ paths) (bytes : List UInt8)
    (found : after.lookup? (files.placeOf q) = some (.file bytes)) :
    files.tree.lookup? (files.placeOf q) = some (.file bytes) := by
  have below : files.placeOf q ≠ [] := by
    intro top
    rw [top] at found
    cases found
  rcases grown.beside _ bytes (mem_of_lookup? below found) with older | aside
  · exact lookup?_of_mem older
  · exact absurd rfl (aside q inside)

/-- In a tree without links a relative path that is normalised is completed, unless it cannot be told
what file it means. What it is completed to is normalised and is a file, or it is the path itself and
there is none of the files that it can mean; and it is completed to itself. If it is a file, it stays
what the path is completed to when files are added, if none of them is preferred to it. -/
theorem completion_stable (files : FileSystem) (linkless : files.tree.IsLinkless) {root p : Text}
    (relative : ¬ isAbsolute p) (normal : normalize p = p) {extensions : List Text}
    (plain : ∀ extension ∈ extensions, .scalar '/' ∉ extension)
    (decided : ∀ fault, ¬ Undecided files root extensions p fault) :
    ∃ r, complete files root extensions p = .ok r ∧ normalize r = r ∧
      (files.isFile (child root r) = .ok true ∨
        r = p ∧ ∀ q ∈ candidates extensions p, files.isFile (child root q) = .ok false) ∧
      complete files root extensions r = .ok r ∧
      (files.isFile (child root r) = .ok true → ∀ after,
        GrowsBeside files after ((preferred extensions p r).map (child root)) →
          complete { files with tree := after } root extensions p = .ok r) := by
  have tidy : IsTidy p := ⟨relative, normal⟩
  cases found : firstFile? files root (candidates extensions p) with
  | error fault => exact absurd (firstFile?_eq_error_iff.1 found) (decided fault)
  | ok first =>
    have completed : complete files root extensions p = .ok (first.getD p) := by
      rw [complete, found]; rfl
    cases first with
    | none =>
      have none := firstFile?_eq_none_iff.1 found
      refine ⟨p, completed, normal, .inr ⟨rfl, none⟩, completed, fun there => ?_⟩
      rw [none p (by simp [candidates])] at there
      cases there
    | some r =>
      obtain ⟨candidate, there, before⟩ := firstFile?_eq_some_iff.1 found
      refine ⟨r, completed, (isTidy_of_candidate tidy plain candidate).normal, .inl there, ?_, ?_⟩
      · have itself : firstFile? files root (candidates extensions r) = .ok (some r) :=
          firstFile?_eq_some_iff.2 ⟨by simp [candidates], there, by simp [candidates]⟩
        rw [complete, itself]
        rfl
      · intro _ after grown
        have still : firstFile? { files with tree := after } root (candidates extensions p) =
            .ok (some r) := by
          refine firstFile?_eq_some_iff.2
            ⟨candidate, FileSystem.isFile_stays grown.grows there, fun q preferred => ?_⟩
          exact FileSystem.isFile_of_grows linkless grown.grows grown.linkless
            (isHoused_of_preferred linkless tidy plain candidate there preferred)
            (before q preferred) fun bytes => grown.lookup? (List.mem_map_of_mem preferred) bytes
        rw [complete, still]
        rfl

/-- A file, seen from a root that is reached in a roundabout way. -/
def oneSource : FileSystem where
  tree := FileTree.empty.addAlong ["r", "src", "a.ts"] (.file [])

/-- Later there is an index file as well, and so a directory at the very path that was completed. -/
def twoSources : FileTree := oneSource.tree.addAlong ["r", "src", "a", "index.js"] (.file [])

theorem oneSource_stable : oneSource.tree.IsLinkless ∧ ¬ isAbsolute "src/a" ∧
    normalize "src/a" = "src/a" ∧
      (∀ extension ∈ ([".js", ".ts", ""] : List Text), .scalar '/' ∉ extension) ∧
    (∀ fault, ¬ Undecided oneSource "/r/../r" [".js", ".ts", ""] "src/a" fault) ∧
    complete { oneSource with tree := twoSources } "/r/../r" [".js", ".ts", ""] "src/a" =
      .ok "src/a.ts" := by
  have linkless : oneSource.tree.IsLinkless := by decide
  have completed : complete oneSource "/r/../r" [".js", ".ts", ""] "src/a" = .ok "src/a.ts" := by
    decide
  have relative : ¬ isAbsolute "src/a" := by decide
  have normal : normalize "src/a" = "src/a" := by decide
  have plain : ∀ extension ∈ ([".js", ".ts", ""] : List Text), .scalar '/' ∉ extension := by decide
  have decided : ∀ fault, ¬ Undecided oneSource "/r/../r" [".js", ".ts", ""] "src/a" fault := by
    intro fault undecided
    rw [← complete_eq_error_iff, completed] at undecided
    cases undecided
  have grown : GrowsBeside oneSource twoSources
      ((preferred [".js", ".ts", ""] "src/a" "src/a.ts").map (child "/r/../r")) := by
    have beside : ∀ entry ∈ twoSources.entries, entry.2 = .directory ∨
        entry ∈ oneSource.tree.entries ∨
        ∀ q ∈ (preferred [".js", ".ts", ""] "src/a" "src/a.ts").map (child "/r/../r"),
          oneSource.placeOf q ≠ entry.1 := by decide
    have grows : oneSource.tree.entries <+: twoSources.entries := by decide
    refine ⟨grows, by decide, fun place bytes inside => ?_⟩
    exact (beside _ inside).resolve_left (by simp)
  obtain ⟨r, run, -, -, -, stable⟩ :=
    completion_stable oneSource linkless relative normal plain decided
  obtain rfl := Except.ok.inj (completed.symm.trans run)
  exact ⟨linkless, relative, normal, plain, decided, stable (by decide) twoSources grown⟩

end ModuleAtlas.Resolution
