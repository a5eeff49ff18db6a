import ModuleAtlas.Discovery
import ModuleAtlas.Proofs.FileTree.RealPath
import ModuleAtlas.Proofs.Text.Order
/-!
The files that a walk finds. They stand at places below the directory that is walked through
(`mem_walk`), and no place is found twice (`walk_nodup`), since no name stands twice in a directory.
-/
namespace ModuleAtlas
open ModuleAtlas.Path

namespace FileTree

/-- No name stands twice in a directory. -/
theorem names_nodup (tree : FileTree) (directory : Place) : (tree.names directory).Nodup := by
  rw [names, (Text.sort_perm _).nodup_iff]
  have places : (tree.entries.filterMap fun entry => nameIn? directory entry.1) =
      (tree.entries.map Prod.fst).filterMap (nameIn? directory) := by
    rw [List.filterMap_map]
    rfl
  rw [places]
  apply tree.distinct.filterMap
  intro left right name inLeft inRight
  have whole : ∀ place, name ∈ nameIn? directory place → place = directory ++ [name] := by
    intro place inside
    rw [nameIn?] at inside
    split at inside
    · rename_i house
      rw [← house]
      exact (List.dropLast_append_getLast? name inside).symm
    · simp at inside
  rw [whole left inLeft, whole right inRight]

theorem isName_of_mem_names {tree : FileTree} {directory : Place} {name : Text}
    (inside : name ∈ tree.names directory) : IsName name := by
  rw [names, (Text.sort_perm _).mem_iff] at inside
  obtain ⟨entry, held, here⟩ := List.mem_filterMap.1 inside
  rw [nameIn?] at here
  split at here
  · exact areNames_of_mem tree held name (List.mem_of_getLast? here)
  · simp at here

end FileTree

theorem FileSystem.list_eq_names {files : FileSystem} {p : Text} {names : List Text}
    (listed : files.list p = .ok names) : ∃ place, names = files.tree.names place := by
  rw [list] at listed
  split at listed
  · simp at listed
  · split at listed
    · rename_i place _
      exact ⟨place, (Except.ok.inj listed).symm⟩
    · simp at listed
    · simp at listed
    · simp at listed

/-- A directory whose entries stand in order already lists them so. -/
theorem FileSystem.list_of_located {files : FileSystem} {p : Text} {place : Place}
    {names : List Text} (allowed : files.unlistable.contains (files.fromRoot p) = false)
    (located : files.locate true p = .ok (.entry place .directory))
    (entries : (files.tree.entries.filterMap fun entry => FileTree.nameIn? place entry.1) = names)
    (sorted : Text.Sorted id names) : files.list p = .ok names := by
  rw [list, allowed, located]
  simp only [FileTree.names, entries, Text.sort_eq_self sorted]
  rfl

namespace Discovery
variable {files : FileSystem} {scope : Scope}

/-- Finding one thing after the other leaves out nothing but what comes behind a fault. -/
theorem andThen_sublist (found : List Found) :
    (found.foldr Found.andThen {}).files.Sublist (found.flatMap Found.files) := by
  induction found with
  | nil => exact List.Sublist.refl _
  | cons first rest ih =>
    rw [List.foldr_cons, List.flatMap_cons, Found.andThen]
    split
    · exact List.sublist_append_left _ _
    · exact ih.append_left _

/-- An entry contributes itself or what stands below it. -/
theorem mem_entryFiles {descend : Place → Found} {directory place : Place} {name : Text}
    (inside : place ∈ (entryFiles descend files scope directory name).files) :
    place = directory ++ [name] ∨ place ∈ (descend (directory ++ [name])).files := by
  simp only [entryFiles] at inside
  split at inside
  · simp at inside
  · split at inside
    · simp at inside
    · exact .inr inside
  · split at inside
    · simp at inside
    · split at inside
      · exact .inl (by simpa using inside)
      · simp at inside

theorem entryFiles_nodup {descend : Place → Found} {directory : Place} {name : Text}
    (below : (descend (directory ++ [name])).files.Nodup) :
    (entryFiles descend files scope directory name).files.Nodup := by
  simp only [entryFiles]
  split
  · simp
  · split
    · simp
    · exact below
  · split
    · simp
    · split <;> simp

/-- A walk finds places below the directory it starts in. -/
theorem mem_walk {levels : Nat} {directory place : Place}
    (inside : place ∈ (walk files scope levels directory).files) :
    ∃ below, below ≠ [] ∧ AreNames below ∧ place = directory ++ below := by
  induction levels generalizing directory place with
  | zero => simp [walk] at inside
  | succ levels ih =>
    rw [walk] at inside
    split at inside
    · simp at inside
    · rename_i names listed
      obtain ⟨found, ofName, here⟩ := List.mem_flatMap.1 ((andThen_sublist _).subset inside)
      obtain ⟨name, known, rfl⟩ := List.mem_map.1 ofName
      obtain ⟨listedPlace, rfl⟩ := FileSystem.list_eq_names listed
      have named : AreNames [name] := by
        intro other last
        rw [List.mem_singleton.1 last]
        exact FileTree.isName_of_mem_names known
      rcases mem_entryFiles here with rfl | deeper
      · exact ⟨[name], by simp, named, rfl⟩
      · obtain ⟨below, _, proper, rfl⟩ := ih deeper
        exact ⟨name :: below, by simp, areNames_append.2 ⟨named, proper⟩, by simp⟩

theorem walk_nodup (levels : Nat) (directory : Place) :
    (walk files scope levels directory).files.Nodup := by
  induction levels generalizing directory with
  | zero => simp [walk]
  | succ levels ih =>
    rw [walk]
    split
    · simp
    · rename_i names listed
      obtain ⟨listedPlace, rfl⟩ := FileSystem.list_eq_names listed
      apply (andThen_sublist _).nodup
      rw [List.flatMap_map, List.nodup_flatMap]
      refine ⟨fun name _ => entryFiles_nodup (ih _), ?_⟩
      -- What an entry contributes has its name in its place, behind that of the directory.
      have marked : ∀ name place, place ∈
          (entryFiles (walk files scope levels) files scope directory name).files →
            (place.drop directory.length).head? = some name := by
        intro name place inside
        rcases mem_entryFiles inside with rfl | deeper
        · simp
        · obtain ⟨below, _, _, rfl⟩ := mem_walk deeper
          simp
      apply (FileTree.names_nodup _ _).imp
      intro left right apart place inLeft inRight
      have same := (marked left place inLeft).symm.trans (marked right place inRight)
      exact apart (Option.some.inj same)

end Discovery
end ModuleAtlas
