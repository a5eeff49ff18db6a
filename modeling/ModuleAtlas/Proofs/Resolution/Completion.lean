import ModuleAtlas.Proofs.FileTree.Check
import ModuleAtlas.Proofs.Path.Place
import ModuleAtlas.Resolution
/-!
Imports of which it cannot be told what file they mean. Completing a path looks at the files it can
mean, the preferred ones first, and fails where it cannot be told whether one of them is there
(`Undecided`). That is so only if the path of this file is too long, or too long a name stands on
the way along it (`Undecided.overlong`).
-/
namespace ModuleAtlas.Resolution
open ModuleAtlas.Path

variable {files : FileSystem} {root p : Text} {extensions : List Text} {fault : FileFault}

/-- It cannot be told what file a path means: of one of the files that it can mean it cannot be told
whether it is there, and none that is preferred to this one is there. -/
def Undecided (files : FileSystem) (root : Text) (extensions : List Text) (p : Text)
    (fault : FileFault) : Prop :=
  ∃ preferred q others, candidates extensions p = preferred ++ q :: others ∧
    (∀ r ∈ preferred, files.isFile (child root r) = .ok false) ∧
    files.isFile (child root q) = .error fault

theorem firstFile?_eq_error_iff {paths : List Text} :
    firstFile? files root paths = .error fault ↔
      ∃ preferred q others, paths = preferred ++ q :: others ∧
        (∀ r ∈ preferred, files.isFile (child root r) = .ok false) ∧
        files.isFile (child root q) = .error fault := by
  induction paths with
  | nil => simp [firstFile?]
  | cons first paths ih =>
    rw [firstFile?]
    constructor
    · intro failed
      split at failed
      · rename_i refused
        cases failed
        exact ⟨[], first, paths, rfl, by simp, refused⟩
      · cases failed
      · rename_i absent
        obtain ⟨preferred, q, others, rfl, none, refused⟩ := ih.1 failed
        exact ⟨first :: preferred, q, others, rfl, List.forall_mem_cons.2 ⟨absent, none⟩, refused⟩
    · rintro ⟨preferred, q, others, split, none, refused⟩
      cases preferred with
      | nil =>
        obtain ⟨rfl, rfl⟩ := List.cons.inj split
        rw [refused]
      | cons r preferred =>
        obtain ⟨rfl, rfl⟩ := List.cons.inj split
        obtain ⟨absent, none⟩ := List.forall_mem_cons.1 none
        rw [absent]
        exact ih.2 ⟨preferred, q, others, rfl, none, refused⟩

theorem complete_eq_error_iff :
    complete files root extensions p = .error fault ↔ Undecided files root extensions p fault := by
  rw [Undecided, ← firstFile?_eq_error_iff]
  exact map_eq_error

/-- What cannot be told has a path that is too long, or too long a name on the way along it. -/
theorem Undecided.overlong (undecided : Undecided files root extensions p fault) :
    ∃ q ∈ candidates extensions p, fault = ⟨.nameTooLong, child root q⟩ ∧
      files.IsOverlong (child root q) := by
  obtain ⟨preferred, q, others, split, -, refused⟩ := undecided
  refine ⟨q, by simp [split], ?_⟩
  exact FileSystem.target?_eq_error (FileSystem.isFile_eq_error_iff.1 refused)

section
variable {content directory : Text} {settings : Settings}

/-- The targets of a source text seen from directories that are given by their own paths. -/
theorem targets_of_normal (normal : normalize root = root) (rooted : isAbsolute root)
    (inside : isAbsolute directory) : targets files content directory root settings =
      (ownSpecifiers content settings).mapM fun specifier =>
        complete files root Discovery.sourceExtensions
          (relativePath (Place.path files.current) specifier settings root directory) := by
  simp only [targets, absolute, if_pos rooted, normal, join, if_pos inside]

end

end ModuleAtlas.Resolution
