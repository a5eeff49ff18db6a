import ModuleAtlas.Proofs.FileTree.Locate
import ModuleAtlas.Proofs.Outcome
/-!
Checks that fail. What stands at a path can be told unless the path is too long, or a name is too
long on the way along it: one of its own or one of the target of a link (`target?_eq_error`). All
other paths that lead nowhere lead to nothing. A real path can be told unless the path has something
in it that no path can have, or its links go in a circle (`realPath_eq_error`).
-/
namespace ModuleAtlas

namespace FileTree
variable {tree : FileTree}

/-- One of the steps is too long for a name. -/
def HasLong (todo : List Text) : Prop := ∃ step ∈ todo, nameLimit < Text.utf8Length step

/-- Some link of the tree leads along too long a name. -/
def HasLongLink (tree : FileTree) : Prop :=
  ∃ place target, (place, Entry.link target) ∈ tree.entries ∧ HasLong (steps target)

/-- The walk fails because nothing is there, or because of too long a name. -/
def FailsFor (tree : FileTree) (todo : List Text) (cause : FileCause) : Prop :=
  FileSystem.isAbsence cause ∨ cause = .nameTooLong ∧ (HasLong todo ∨ HasLongLink tree)

theorem FailsFor.later {step : Text} {todo : List Text} {cause : FileCause}
    (fails : FailsFor tree todo cause) : FailsFor tree (step :: todo) cause :=
  fails.imp_right fun ⟨same, long⟩ => ⟨same, long.imp_left fun ⟨other, inside, long⟩ =>
    ⟨other, List.mem_cons_of_mem _ inside, long⟩⟩

/-- Going on along a link brings in no long names but those of its target. -/
theorem FailsFor.unfollowed {place : Place} {target : Text} {rest : List Text} {cause : FileCause}
    (held : (place, Entry.link target) ∈ tree.entries)
    (fails : FailsFor tree (steps target ++ rest) cause) : FailsFor tree rest cause := by
  refine fails.imp_right fun ⟨same, long⟩ => ⟨same, ?_⟩
  rcases long with ⟨step, inside, long⟩ | links
  · rcases List.mem_append.1 inside with ofTarget | ofRest
    · exact .inr ⟨place, target, held, step, ofTarget, long⟩
    · exact .inl ⟨step, ofRest, long⟩
  · exact .inr links

theorem Walks.failsFor {followLast : Bool} {links : Nat} {place : Place} {todo : List Text}
    {cause : FileCause} (walks : Walks tree followLast links place todo (.error cause)) :
    FailsFor tree todo cause := by
  generalize whole : Except.error cause = outcome at walks
  induction walks with
  | here | vacant | stay => cases whole
  | nowhere | barred | lost | spent =>
    cases whole
    exact .inl rfl
  | @long _ _ step _ _ _ _ long =>
    cases whole
    exact .inr ⟨rfl, .inl ⟨step, by simp, long⟩⟩
  | dot _ _ ih => exact (ih whole).later
  | up _ _ ih => exact (ih whole).later
  | down _ _ _ ih => exact (ih whole).later
  | along down _ _ ih =>
    exact ((ih whole).unfollowed (mem_of_lookup? (by simp) down.found)).later

end FileTree

namespace FileSystem
open FileTree
variable {files : FileSystem} {p : Text} {fault : FileFault}

/-- The path is too long, or too long a name stands on the way along it. -/
def IsOverlong (files : FileSystem) (p : Text) : Prop :=
  pathLimit < Text.utf8Length p ∨ HasLong (steps p) ∨ HasLongLink files.tree

theorem locate_error {followLast : Bool} {cause : FileCause}
    (failed : files.locate followLast p = .error cause) :
    isAbsence cause ∨ cause = .nameTooLong ∧ files.IsOverlong p := by
  rw [locate] at failed
  split at failed
  · rename_i refused
    cases failed
    exact .inl (isAbsence_of_isIllegal (FileCause.isIllegal_of_ofText? refused))
  split at failed
  · rename_i long
    cases failed
    exact .inr ⟨rfl, .inl long⟩
  · exact (walks_iff.2 failed).failsFor.imp_right (And.imp_right .inr)

/-- A check fails only because of a path or name that is too long. -/
theorem target?_eq_error (failed : files.target? p = .error fault) :
    fault = ⟨.nameTooLong, p⟩ ∧ files.IsOverlong p := by
  rw [target?] at failed
  split at failed
  · cases failed
  · cases failed
  · rename_i cause located
    split at failed
    · cases failed
    · rename_i present
      cases failed
      obtain ⟨rfl, long⟩ := (locate_error located).resolve_left present
      exact ⟨rfl, long⟩

/-- The path of the fault is one with which operations on it fail for this cause. -/
def BearsOut (files : FileSystem) (fault : FileFault) : Prop :=
  match fault.cause with
  | .nullCharacter => .scalar '\x00' ∈ fault.path
  | .unencodable => ∃ c ∈ fault.path, Text.isEncodable c = false
  | .linkLoop => files.locate true fault.path = .error .tooManyLinks
  | .nameTooLong => files.IsOverlong fault.path
  | _ => False

theorem bearsOut_of_target? (failed : files.target? p = .error fault) : files.BearsOut fault := by
  obtain ⟨rfl, long⟩ := target?_eq_error failed
  exact long

theorem mem_join {base step : Text} {c : CodePoint} (inside : c ∈ step) : c ∈ Path.join base step := by
  rw [Path.join]
  split
  · exact inside
  split <;> simp [inside]

theorem bearsOut_of_illegalStep? (refused : files.illegalStep? p = some fault) :
    fault.cause.isIllegal ∧ files.BearsOut fault := by
  obtain ⟨step, -, found⟩ := List.exists_of_findSome?_eq_some refused
  obtain ⟨cause, illegal, rfl⟩ := Option.map_eq_some_iff.1 found
  refine ⟨FileCause.isIllegal_of_ofText? illegal, ?_⟩
  rcases FileCause.ofText?_eq_some illegal with ⟨rfl, c, inside, plain⟩ | ⟨rfl, null⟩
  · exact ⟨c, mem_join inside, plain⟩
  · exact mem_join null

/-- A real path cannot be told only because of what no path can have, or because of links that go in
a circle. -/
theorem realPath_eq_error (failed : files.realPath p = .error fault) : files.BearsOut fault := by
  rw [realPath] at failed
  split at failed
  · rename_i refused
    cases failed
    exact (bearsOut_of_illegalStep? refused).2
  · simp only at failed
    split at failed
    · rename_i circle
      cases failed
      exact circle
    · cases failed

theorem isFile_eq_error_iff : files.isFile p = .error fault ↔ files.target? p = .error fault :=
  map_eq_error

theorem isDirectory_eq_error_iff :
    files.isDirectory p = .error fault ↔ files.target? p = .error fault :=
  map_eq_error

end FileSystem
end ModuleAtlas
