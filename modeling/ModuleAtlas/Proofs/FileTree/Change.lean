import ModuleAtlas.Proofs.FileTree.Check
import ModuleAtlas.Proofs.FileTree.Inside
/-!
What a change of the file system comes to. A new file or directory stands where nothing stood, and
the path leads to it from then on; a file that is written anew has other bytes and everything else
stays as it is (`write_cases`); making directories adds directories only (`makeAlong_cases`).
Otherwise the change fails, for a null character only if one stands in the path.
-/
namespace ModuleAtlas
open ModuleAtlas.Path

namespace FileTree

/-- No link of the tree leads along a name with a null character. -/
def IsClear (tree : FileTree) : Prop :=
  ∀ place target, (place, Entry.link target) ∈ tree.entries → target.IsLegal

/-- Entries that are no links leave the tree clear. -/
theorem IsClear.append {tree after : FileTree} (clear : tree.IsClear) {new : List (Place × Entry)}
    (entries : after.entries = tree.entries ++ new)
    (noLink : ∀ entry ∈ new, ∀ target, entry.2 ≠ .link target) : after.IsClear := by
  intro place target inside
  rw [entries] at inside
  rcases List.mem_append.1 inside with older | added
  · exact clear place target older
  · exact absurd rfl (noLink _ added target)

/-! ## Vacancies -/

/-- The directory lacks the name and can have an entry of it. -/
structure IsVacant (tree : FileTree) (directory : Place) (name : Text) : Prop where
  real : tree.isDirectoryAt directory
  named : isEntryName name
  free : tree.lookup? (directory ++ [name]) = none

/-- What can be a step of a path without null characters. -/
def IsClearStep (step : Text) : Prop := IsStep step ∧ step.IsLegal

theorem isClearStep_of_mem_steps {p step : Text} (clear : p.IsLegal) (inside : step ∈ steps p) :
    IsClearStep step := ⟨isStep_of_mem_steps inside, isLegal_step clear inside⟩

section
variable {tree after : FileTree} {followLast : Bool} {links : Nat} {place directory : Place}
  {name : Text} {todo : List Text} {entry : Entry}

theorem Walks.isVacant (clear : tree.IsClear) (can : ∀ step ∈ todo, IsClearStep step)
    (walks : Walks tree followLast links place todo (.ok (.vacancy directory name))) :
    IsVacant tree directory name := by
  generalize whole : Except.ok (Destination.vacancy directory name) = outcome at walks
  induction walks with
  | here | nowhere | barred | long | lost | stay | spent => cases whole
  | vacant amiss =>
    cases whole
    obtain ⟨⟨some, noSlash⟩, known⟩ := can name (by simp)
    exact ⟨amiss.real, isEntryName_iff.2 ⟨some, noSlash, known, amiss.noDot, amiss.noUp⟩, amiss.free⟩
  | dot _ _ ih => exact ih (List.forall_mem_cons.1 can).2 whole
  | up _ _ ih => exact ih (List.forall_mem_cons.1 can).2 whole
  | down _ _ _ ih => exact ih (List.forall_mem_cons.1 can).2 whole
  | along down _ _ ih =>
    have target := clear _ _ (mem_of_lookup? (by simp) down.found)
    exact ih (List.forall_mem_append.2 ⟨fun step inside => isClearStep_of_mem_steps target inside,
      (List.forall_mem_cons.1 can).2⟩) whole

/-! ## Other bytes -/

/-- Where a file is overwritten, every place holds what it has held, but for the bytes. -/
theorem lookup?_overwrite (place : Place) (bytes : List UInt8) (other : Place) :
    (tree.overwrite place bytes).lookup? other =
      (tree.lookup? other).map fun entry => (overwriteEntry place bytes (other, entry)).2 := by
  by_cases top : other = []
  · rw [lookup?, lookup?, if_pos top, if_pos top]
    rfl
  · have test : (fun entry => entry.1 == other) ∘ overwriteEntry place bytes =
        fun entry => entry.1 == other := by
      funext entry
      rw [Function.comp, overwriteEntry_fst]
    have found : (tree.entries.map (overwriteEntry place bytes)).find? (fun entry => entry.1 == other) =
        (tree.entries.find? fun entry => entry.1 == other).map (overwriteEntry place bytes) := by
      rw [List.find?_map, test]
    rw [lookup?, lookup?, if_neg top, if_neg top, overwrite, found, Option.map_map, Option.map_map]
    refine Option.map_congr fun entry held => ?_
    have same : entry.1 = other := by simpa using List.find?_some held
    rw [← same]
    rfl

theorem lookup?_overwrite_of_ne {other : Place} (apart : other ≠ place) (bytes : List UInt8) :
    (tree.overwrite place bytes).lookup? other = tree.lookup? other := by
  rw [lookup?_overwrite]
  cases tree.lookup? other with
  | none => rfl
  | some entry => cases entry <;> simp [overwriteEntry, apart]

theorem isDirectoryAt_overwrite (place : Place) (bytes : List UInt8)
    (real : tree.isDirectoryAt directory) : (tree.overwrite place bytes).isDirectoryAt directory := by
  rw [isDirectoryAt, beq_iff_eq] at real ⊢
  rw [lookup?_overwrite, real]
  rfl

theorem GoesDown.overwrite {step : Text} (down : GoesDown tree directory step entry) (place : Place)
    (bytes : List UInt8) : GoesDown (tree.overwrite place bytes) directory step
      (overwriteEntry place bytes (directory ++ [step], entry)).2 :=
  ⟨isDirectoryAt_overwrite place bytes down.real, down.noDot, down.noUp, down.short, by
    rw [lookup?_overwrite, down.found]
    rfl⟩

/-- Other bytes in a file change nothing in where steps lead. -/
theorem Leads.overwrite {start last : Place} (leads : Leads tree followLast links start todo last entry)
    (place : Place) (bytes : List UInt8) : Leads (tree.overwrite place bytes) followLast links start
      todo last (overwriteEntry place bytes (last, entry)).2 := by
  induction leads with
  | here found => exact .here (by rw [lookup?_overwrite, found]; rfl)
  | dot real _ ih => exact .dot (isDirectoryAt_overwrite place bytes real) ih
  | up real _ ih => exact .up (isDirectoryAt_overwrite place bytes real) ih
  | @down _ _ _ _ _ between _ down noLink _ ih =>
    refine .down (down.overwrite place bytes) (fun target same => ?_) ih
    cases between with
    | link target => exact noLink target rfl
    | _ => cases same
  | along down goes _ ih => exact .along (down.overwrite place bytes) goes ih
  | stay down stays => exact .stay (down.overwrite place bytes) stays

theorem lookup?_of_entries {new : Entry} (entries : after.entries = tree.entries ++ [(place, new)])
    {other : Place} (apart : other ≠ place) : after.lookup? other = tree.lookup? other := by
  have last : (place == other) = false := by simpa using Ne.symm apart
  rw [lookup?, lookup?, entries, List.find?_append]
  simp [last]

/-- No walk fails because of something that no path can have. -/
theorem Walks.not_isIllegal {cause : FileCause}
    (walks : Walks tree followLast links place todo (.error cause)) : cause.isIllegal = false := by
  generalize whole : Except.error cause = outcome at walks
  induction walks with
  | dot _ _ ih | up _ _ ih | down _ _ _ ih | along _ _ _ ih => exact ih whole
  | here | nowhere | barred | long | vacant | lost | stay | spent => cases whole <;> rfl

end
end FileTree

namespace FileSystem
open FileTree

/-! ## Real paths -/

/-- What holds of the file system of a running command: its current directory is there, and no link
leads along a name with a null character. -/
structure IsSound (files : FileSystem) : Prop where
  current : files.tree.isDirectoryAt files.current
  links : files.tree.IsClear

section
variable {files : FileSystem} {p real : Text}

/-- The real path of a legal path can be told unless links go in a circle. -/
theorem realPath_cases (legal : p.IsLegal) : (∃ real, files.realPath p = .ok real) ∨
    ∃ fault, files.realPath p = .error fault ∧ fault.cause = .linkLoop := by
  rw [realPath_of_isLegal legal]
  split
  · exact .inr ⟨_, rfl, rfl⟩
  · exact .inl ⟨_, rfl⟩

/-- The real path of any path is that of a place of legal names. -/
theorem IsSound.realPath (sound : files.IsSound) (found : files.realPath p = .ok real) :
    real.IsLegal ∧ clean real = real := by
  have current : files.tree.lookup? files.current = some .directory := by
    simpa [isDirectoryAt] using sound.current
  obtain ⟨legal, rfl, -⟩ := realPath_eq_ok_iff.1 found
  have clear : ∀ name ∈ files.reached p (steps p), name.IsLegal := by
    refine forall_mem_real (fun place target held step inside _ _ => ?_) ?_
      fun step inside _ _ => isLegal_step legal inside
    · have below : place ≠ [] := by
        rintro rfl
        cases held
      exact isLegal_step (sound.links _ _ (mem_of_lookup? below held)) inside
    · rw [startOf]
      split
      · simp
      · exact isLegal_name current
  have proper : AreNames (files.reached p (steps p)) := by
    refine areNames_reached ?_ _ fun step inside => isStep_of_mem_steps inside
    rw [startOf]
    split
    · simp [AreNames]
    · exact areNames_of_lookup? current
  exact ⟨isLegal_path_of_names clear, clean_path proper⟩

end

/-! ## New entries -/

section
variable {files : FileSystem} {p : Text} {followLast : Bool} {directory : Place} {name : Text}

theorem not_isIllegal_of_locate (legal : p.IsLegal) {cause : FileCause}
    (failed : files.locate followLast p = .error cause) : cause.isIllegal = false := by
  rw [locate_of_isLegal legal] at failed
  split at failed
  · cases failed
    rfl
  · exact (walks_iff.2 failed).not_isIllegal

theorem isVacant_of_locate (clear : files.tree.IsClear)
    (located : files.locate followLast p = .ok (.vacancy directory name)) :
    files.tree.IsVacant directory name := by
  have legal := isLegal_of_locate located
  rw [locate_of_isLegal legal] at located
  split at located
  · cases located
  · exact (walks_iff.2 located).isVacant clear fun step inside => isClearStep_of_mem_steps legal inside

/-- What is added in a vacancy is one more entry. -/
theorem entries_of_isVacant (vacant : files.tree.IsVacant directory name) (entry : Entry) :
    (files.add directory name entry).tree.entries =
      files.tree.entries ++ [(directory ++ [name], entry)] :=
  FileTree.entries_add (admits_of_free vacant.real vacant.named vacant.free) entry

/-- A path that leads to a vacancy leads to what is added there. -/
theorem locate_of_vacancy (clear : files.tree.IsClear) {entry : Entry}
    (noLink : ∀ target, entry ≠ .link target)
    (located : files.locate followLast p = .ok (.vacancy directory name)) :
    (files.add directory name entry).locate followLast p =
      .ok (.entry (directory ++ [name]) entry) := by
  have entries := entries_of_isVacant (isVacant_of_locate clear located) entry
  have filled : (files.add directory name entry).tree.lookup? (directory ++ [name]) = some entry :=
    lookup?_of_mem (by simp [entries])
  have legal := isLegal_of_locate located
  rw [locate_of_isLegal legal] at located
  split at located
  · cases located
  rename_i short
  exact locate_eq_entry_iff.2 ⟨legal, short,
    (walks_iff.2 located).leads ⟨_, entries.symm⟩ (.vacancy rfl filled noLink)⟩

theorem create_cases (clear : files.tree.IsClear) (path : p.IsLegal) (entry : Entry) :
    (∃ directory name, files.tree.IsVacant directory name ∧
      files.create p entry = .ok (files.add directory name entry)) ∨
    ∃ fault, files.create p entry = .error fault ∧ fault.cause.isIllegal = false := by
  rw [create]
  split
  · rename_i directory name located
    exact .inl ⟨directory, name, isVacant_of_locate clear located, rfl⟩
  · exact .inr ⟨_, rfl, rfl⟩
  · rename_i cause located
    exact .inr ⟨_, rfl, not_isIllegal_of_locate path located⟩

end

/-! ## Written files -/

/-- The file at a place, to which a path leads, has been given its bytes. -/
structure Writes (before after : FileSystem) (p : Text) (place : Place) (bytes : List UInt8) : Prop where
  found : after.locate true p = .ok (.entry place (.file bytes))
  others : ∀ other ≠ place, after.tree.lookup? other = before.tree.lookup? other

/-- Writing gives a file its bytes unless it fails, and then the path leads to no file. -/
theorem write_cases {files : FileSystem} {p : Text} (clear : files.tree.IsClear) (path : p.IsLegal)
    (bytes : List UInt8) :
    (∃ after place, files.write p bytes = .ok after ∧ Writes files after p place bytes) ∨
    ∃ fault, files.write p bytes = .error fault ∧ fault.cause.isIllegal = false ∧
      ∀ place old, files.locate true p ≠ .ok (.entry place (.file old)) := by
  rw [write]
  split
  · rename_i directory name located
    have entries := entries_of_isVacant (isVacant_of_locate clear located) (.file bytes)
    exact .inl ⟨_, _, rfl, locate_of_vacancy clear (by simp) located,
      fun other apart => lookup?_of_entries entries apart⟩
  · rename_i place old located
    obtain ⟨null, short, leads⟩ := locate_eq_entry_iff.1 located
    have leads := leads.overwrite place bytes
    rw [overwriteEntry, if_pos rfl] at leads
    exact .inl ⟨_, _, rfl, locate_eq_entry_iff.2 ⟨null, short, leads⟩,
      fun other apart => lookup?_overwrite_of_ne apart bytes⟩
  · rename_i place entry noFile located
    refine .inr ⟨_, rfl, rfl, fun other old same => ?_⟩
    rw [located] at same
    cases same
    exact noFile old rfl
  · rename_i cause located
    refine .inr ⟨_, rfl, not_isIllegal_of_locate path located, fun place old same => ?_⟩
    rw [located] at same
    cases same

/-! ## Directories -/

/-- The files have got further directories only. -/
structure GainsDirectories (before after : FileSystem) : Prop where
  entries : ∃ made : List (Place × Entry), (∀ entry ∈ made, entry.2 = .directory) ∧
    after.tree.entries = before.tree.entries ++ made

namespace GainsDirectories
variable {first second third : FileSystem}

theorem refl (files : FileSystem) : GainsDirectories files files := ⟨[], by simp, by simp⟩

theorem trans (one : GainsDirectories first second) (two : GainsDirectories second third) :
    GainsDirectories first third := by
  obtain ⟨made, directories, same⟩ := one.entries
  obtain ⟨more, alsoDirectories, further⟩ := two.entries
  exact ⟨made ++ more, List.forall_mem_append.2 ⟨directories, alsoDirectories⟩,
    by rw [further, same, List.append_assoc]⟩

theorem grows (gains : GainsDirectories first second) : first.tree.Grows second.tree := by
  obtain ⟨made, -, same⟩ := gains.entries
  exact ⟨made, same.symm⟩

theorem isClear (gains : GainsDirectories first second) (clear : first.tree.IsClear) :
    second.tree.IsClear := by
  obtain ⟨made, directories, same⟩ := gains.entries
  exact clear.append same fun entry inside target => by simp [directories entry inside]

/-- A file that is there afterwards was there before. -/
theorem file (gains : GainsDirectories first second) {place : Place} {bytes : List UInt8}
    (found : second.tree.lookup? place = some (.file bytes)) :
    first.tree.lookup? place = some (.file bytes) := by
  obtain ⟨made, directories, same⟩ := gains.entries
  have below : place ≠ [] := by
    rintro rfl
    cases found
  have inside := mem_of_lookup? below found
  rw [same] at inside
  rcases List.mem_append.1 inside with older | new
  · exact lookup?_of_mem older
  · cases directories _ new

end GainsDirectories

section
variable {files : FileSystem} {p : Text}

theorem makeDirectory_cases (clear : files.tree.IsClear) (path : p.IsLegal) :
    (∃ after, files.makeDirectory p = .ok after ∧ GainsDirectories files after) ∨
    ∃ fault, files.makeDirectory p = .error fault ∧ fault.cause.isIllegal = false := by
  rw [makeDirectory]
  rcases create_cases clear path .directory with ⟨directory, name, vacant, made⟩ | ⟨fault, failed, known⟩
  · rw [made]
    exact .inl ⟨_, rfl, [(directory ++ [name], .directory)], by simp,
      entries_of_isVacant vacant .directory⟩
  · rw [failed]
    simp only
    split
    · exact .inr ⟨fault, rfl, known⟩
    · rw [settle]
      split
      · exact .inl ⟨files, rfl, .refl files⟩
      · exact .inr ⟨fault, rfl, known⟩
      · rename_i worse unchecked
        obtain ⟨rfl, -⟩ := target?_eq_error (isDirectory_eq_error_iff.1 unchecked)
        exact .inr ⟨_, rfl, by simp⟩

/-- Making directories adds some, whether or not the last of them can be made. -/
theorem makeAlong_cases (clear : files.tree.IsClear) (path : p.IsLegal) (levels : Nat) :
    GainsDirectories files (files.makeAlong levels p).1 ∧
      ∀ fault, (files.makeAlong levels p).2 = .error fault → fault.cause.isIllegal = false := by
  induction levels generalizing p with
  | zero =>
    rw [makeAlong]
    rcases makeDirectory_cases clear path with ⟨after, made, gains⟩ | ⟨fault, failed, known⟩
    · rw [made]
      exact ⟨gains, by simp⟩
    · rw [failed]
      exact ⟨.refl files, fun _ same => by cases same; exact known⟩
  | succ levels ih =>
    rw [makeAlong]
    rcases makeDirectory_cases clear path with ⟨after, made, gains⟩ | ⟨fault, failed, known⟩
    · rw [made]
      exact ⟨gains, by simp⟩
    · rw [failed]
      simp only
      split
      · exact ⟨.refl files, fun _ same => by cases same; exact known⟩
      obtain ⟨gains, above⟩ := ih (isLegal_parent path)
      split
      · rename_i between fault ended
        rw [ended] at gains above
        exact ⟨gains, fun _ same => by cases same; exact above fault rfl⟩
      · rename_i between ended
        rw [ended] at gains
        rcases makeDirectory_cases (gains.isClear clear) path with
          ⟨after, made, further⟩ | ⟨fault, failed, known⟩
        · rw [made]
          exact ⟨gains.trans further, by simp⟩
        · rw [failed]
          exact ⟨gains, fun _ same => by cases same; exact known⟩

/-! ## Texts that are no paths -/

section
variable (files) (illegal : ¬ p.IsLegal)
include illegal

theorem create_of_not_isLegal (entry : Entry) :
    ∃ cause, FileCause.isIllegal cause ∧ files.create p entry = .error ⟨cause, p⟩ := by
  obtain ⟨cause, refused, failed⟩ := locate_of_not_isLegal files illegal false
  exact ⟨cause, refused, by rw [create, failed]⟩

theorem write_of_not_isLegal (bytes : List UInt8) :
    ∃ cause, FileCause.isIllegal cause ∧ files.write p bytes = .error ⟨cause, p⟩ := by
  obtain ⟨cause, refused, failed⟩ := locate_of_not_isLegal files illegal true
  exact ⟨cause, refused, by rw [write, failed]⟩

theorem makeDirectory_of_not_isLegal :
    ∃ cause, FileCause.isIllegal cause ∧ files.makeDirectory p = .error ⟨cause, p⟩ := by
  obtain ⟨cause, refused, failed⟩ := create_of_not_isLegal files illegal .directory
  have nowhere : files.isDirectory p = .ok false := by
    rw [isDirectory, target?_of_not_isLegal illegal]
    rfl
  refine ⟨cause, refused, ?_⟩
  rw [makeDirectory, failed]
  simp only [settle, nowhere, ite_self]

/-- No directory is made where the text is no path, not even one on the way. -/
theorem makeDirectories_of_not_isLegal :
    ∃ cause, FileCause.isIllegal cause ∧ files.makeDirectories p = (files, .error ⟨cause, p⟩) := by
  obtain ⟨cause, refused, failed⟩ := makeDirectory_of_not_isLegal files illegal
  have known : cause ≠ .missing := by
    rintro rfl
    cases refused
  refine ⟨cause, refused, ?_⟩
  rw [makeDirectories]
  cases (segments p).length <;> simp [makeAlong, failed, known]

end

end

end FileSystem
end ModuleAtlas
