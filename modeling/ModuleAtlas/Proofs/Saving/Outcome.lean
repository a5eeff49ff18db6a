import ModuleAtlas.Proofs.FileTree.Change
import ModuleAtlas.Proofs.Saving.Save
/-!
What saving a graph comes to in whatever directory: one new file with the graph in it, or none, and
besides that nothing but directories on the way to it (`save_cases`).
-/
namespace ModuleAtlas.Saving
open ModuleAtlas.Path FileTree FileSystem

/-- The files have got a file at a place where nothing stood, and besides that directories only. -/
structure GainsFile (before after : FileSystem) (place : Place) (bytes : List UInt8) : Prop where
  entries : ∃ made : List (Place × Entry), (∀ entry ∈ made, entry.2 = .directory) ∧
    after.tree.entries = before.tree.entries ++ made ++ [(place, .file bytes)]

namespace GainsFile
variable {before after : FileSystem} {place : Place} {bytes : List UInt8}

theorem grows (gains : GainsFile before after place bytes) : before.tree.Grows after.tree := by
  obtain ⟨made, -, same⟩ := gains.entries
  exact ⟨made ++ [(place, .file bytes)], by rw [same, List.append_assoc]⟩

theorem isClear (gains : GainsFile before after place bytes) (clear : before.tree.IsClear) :
    after.tree.IsClear := by
  obtain ⟨made, directories, same⟩ := gains.entries
  rw [List.append_assoc] at same
  refine clear.append same (List.forall_mem_append.2 ⟨fun entry inside target => ?_, by simp⟩)
  simp [directories entry inside]

theorem found (gains : GainsFile before after place bytes) :
    after.tree.lookup? place = some (.file bytes) := by
  obtain ⟨made, -, same⟩ := gains.entries
  exact lookup?_of_mem (by simp [same])

theorem free (gains : GainsFile before after place bytes) : before.tree.lookup? place = none := by
  obtain ⟨made, -, same⟩ := gains.entries
  have below : place ≠ [] := (after.tree.named (place, .file bytes) (by simp [same])).1
  by_contra taken
  obtain ⟨entry, held⟩ := Option.ne_none_iff_exists'.1 taken
  have distinct := after.tree.distinct
  rw [same, List.map_append, List.nodup_append] at distinct
  have inside := mem_of_lookup? below held
  exact distinct.2.2 place (List.mem_map.2 ⟨_, List.mem_append_left _ inside, rfl⟩) place (by simp) rfl

end GainsFile

section
variable {files : FileSystem} (clear : files.tree.IsClear)
include clear

theorem saveFrom_cases {directory base : Text}
    (paths : ∀ attempt, (child directory (fileName base attempt)).IsLegal) (bytes : List UInt8)
    (attempts attempt : Nat) :
    (∃ after p place, saveFrom directory base bytes attempts [] attempt files = (after, .ok p) ∧
      after.tree.entries = files.tree.entries ++ [(place, .file bytes)]) ∨
    ∃ fault, saveFrom directory base bytes attempts [] attempt files = (files, .error fault) ∧
      fault.cause.isIllegal = false := by
  induction attempts generalizing attempt with
  | zero => exact .inr ⟨_, rfl, by simp⟩
  | succ attempts ih =>
    have alone : addAll files (([] : List Additions).headD []) = files := rfl
    simp only [saveFrom, alone, List.tail_nil]
    rcases create_cases clear (paths attempt) (.file bytes) with
      ⟨place, name, vacant, made⟩ | ⟨fault, failed, known⟩
    · rw [made]
      exact .inl ⟨_, _, _, rfl, entries_of_isVacant vacant _⟩
    · rw [failed]
      simp only
      split
      · exact ih (attempt + 1)
      · exact .inr ⟨fault, rfl, known⟩

/-- A graph whose root has a proper name is saved in one new file, unless this fails. -/
theorem save_cases {α : Type} [Label α] {graph : Graph α} {directory : Text}
    (path : directory.IsLegal) (noSlash : .scalar '/' ∉ Label.shown graph.root.name)
    (legal : (Label.shown graph.root.name).IsLegal) (now : Moment) :
    (∃ after p place, save files directory now graph = (after, .ok p) ∧
      GainsFile files after place (content graph)) ∨
    ∃ after fault, save files directory now graph = (after, .error fault) ∧
      GainsDirectories files after ∧ fault.cause.isIllegal = false := by
  have paths (attempt : Nat) :
      (child (Path.clean directory) (fileName (baseName now graph) attempt)).IsLegal :=
    isLegal_child (isEntryName_fileName (not_mem_baseName noSlash (by decide) (by decide))
      (isLegal_baseName legal) attempt) path
  obtain ⟨gains, failing⟩ :=
    makeAlong_cases clear (isLegal_clean_iff.2 path) (segments (Path.clean directory)).length
  rw [save, saveAmong, makeDirectories]
  split
  · rename_i between fault ended
    rw [ended] at gains failing
    exact .inr ⟨between, fault, rfl, gains, failing fault rfl⟩
  · rename_i between ended
    rw [ended] at gains
    obtain ⟨made, directories, same⟩ := gains.entries
    rcases saveFrom_cases (gains.isClear clear) paths (content graph)
      (between.tree.entries.length + ([] : List Additions).flatten.length + 1) 0 with
      ⟨after, p, place, saved, entries⟩ | ⟨fault, failed, known⟩
    · exact .inl ⟨after, p, place, saved, made, directories, by rw [entries, same]⟩
    · exact .inr ⟨between, fault, failed, gains, known⟩

end

/-- Nothing is saved in a directory that no path can be. -/
theorem save_of_not_isLegal {α : Type} [Label α] (files : FileSystem) {directory : Text}
    (illegal : ¬ directory.IsLegal) (now : Moment) (graph : Graph α) :
    ∃ fault, save files directory now graph = (files, .error fault) ∧ fault.cause.isIllegal := by
  obtain ⟨cause, refused, failed⟩ :=
    makeDirectories_of_not_isLegal files (fun legal => illegal (isLegal_clean_iff.1 legal))
  exact ⟨_, by rw [save, saveAmong, failed], refused⟩

end ModuleAtlas.Saving
