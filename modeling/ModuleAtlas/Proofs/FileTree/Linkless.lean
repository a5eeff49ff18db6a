import ModuleAtlas.Proofs.FileTree.Inside
import ModuleAtlas.Proofs.FileTree.Untouched
/-!
Trees without links. There a path leads to the place that its steps spell out, if it leads anywhere
(`Leads.last_eq`), and all that stands on the way are directories (`Leads.front`). So what is at a path
below a directory depends on the length of the path and on one entry (`target?_below`), and a path that
led to no file leads to one later only if a file has been added at its place (`isFile_of_grows_below`).
-/
namespace ModuleAtlas

namespace FileTree
variable {tree : FileTree} {followLast : Bool} {links : Nat} {place last : Place}
  {todo rest : List Text} {entry : Entry}

/-- No entry is a link. -/
def IsLinkless (tree : FileTree) : Prop := tree.linkCount = 0

instance (tree : FileTree) : Decidable tree.IsLinkless := inferInstanceAs (Decidable (_ = 0))

section
variable (linkless : tree.IsLinkless)
include linkless

theorem IsLinkless.lookup?_ne (place : Place) (target : Text) :
    tree.lookup? place ≠ some (.link target) := by
  intro found
  have links : AreLinks tree [place] := ⟨by simp, by simpa using ⟨target, found⟩⟩
  have fewer := links.length_le
  rw [linkless] at fewer
  exact absurd fewer (by simp)

/-- Without links it is no matter whether a walk would follow one at its end. -/
theorem IsLinkless.walks {outcome : Except FileCause Destination}
    (walks : Walks tree followLast links place todo outcome) (otherLast : Bool) :
    Walks tree otherLast links place todo outcome := by
  induction walks with
  | here found => exact .here found
  | nowhere free => exact .nowhere free
  | barred unreal => exact .barred unreal
  | dot real _ ih => exact .dot real ih
  | up real _ ih => exact .up real ih
  | long real noDot noUp long => exact .long real noDot noUp long
  | vacant amiss => exact .vacant amiss
  | lost amiss more => exact .lost amiss more
  | down down noLink _ ih => exact .down down noLink ih
  | stay down | spent down | along down => exact absurd down.found (linkless.lookup?_ne _ _)

/-- Steps lead to the place that they spell out. -/
theorem Leads.last_eq (leads : Leads tree followLast links place todo last entry) :
    last = todo.foldl plainStep place := by
  induction leads with
  | here => rfl
  | dot _ _ ih => exact ih
  | up _ _ ih => exact ih
  | down down _ _ ih =>
    rw [List.foldl_cons, plainStep_of_ne down.noDot down.noUp]
    exact ih
  | along down => exact absurd down.found (linkless.lookup?_ne _ _)
  | stay down => exact absurd down.found (linkless.lookup?_ne _ _)

/-- Where steps lead somewhere, all but the last of them lead to a directory. -/
theorem Leads.front (some : rest ≠ [])
    (leads : Leads tree followLast links place (todo ++ rest) last entry) :
    ∃ d, Leads tree followLast links place todo d .directory := by
  induction todo generalizing place with
  | nil =>
    have real : tree.isDirectoryAt place := by
      cases leads with
      | here => exact absurd rfl some
      | dot real => exact real
      | up real => exact real
      | down down => exact down.real
      | along down => exact down.real
      | stay down => exact down.real
    exact ⟨place, .here (by simpa [isDirectoryAt] using real)⟩
  | cons step todo ih =>
    rw [List.cons_append] at leads
    generalize whole : step :: (todo ++ rest) = steps at leads
    cases leads with
    | here => cases whole
    | dot real further =>
      cases whole
      obtain ⟨d, further⟩ := ih further
      exact ⟨d, .dot real further⟩
    | up real further =>
      cases whole
      obtain ⟨d, further⟩ := ih further
      exact ⟨d, .up real further⟩
    | down down noLink further =>
      cases whole
      obtain ⟨d, further⟩ := ih further
      exact ⟨d, .down down noLink further⟩
    | along down => exact absurd down.found (linkless.lookup?_ne _ _)
    | stay down => exact absurd down.found (linkless.lookup?_ne _ _)

end
end FileTree

namespace FileSystem
open FileTree ModuleAtlas.Path
variable {files : FileSystem} {p name : Text} {front : List Text} {d : Place} {tree : FileTree}

/-- The place that a path spells out. -/
def placeOf (files : FileSystem) (p : Text) : Place :=
  (steps p).foldl plainStep (startOf files.current p)

/-- What is at the path of a directory. -/
theorem target?_of_directory
    (leads : Leads files.tree true linkLimit (startOf files.current p) (steps p) d .directory) :
    files.target? p = if ¬ p.IsLegal then .ok none
      else if pathLimit < Text.utf8Length p then .error ⟨.nameTooLong, p⟩
      else .ok (some .directory) := by
  by_cases legal : p.IsLegal
  · rw [target?, locate_of_isLegal legal, leads.walks.walk]
    by_cases long : pathLimit < Text.utf8Length p <;> simp [legal, long, isAbsence]
  · rw [if_pos legal, target?_of_not_isLegal legal]

/-- What is at a path below a directory, in a tree without links. -/
theorem target?_below (linkless : files.tree.IsLinkless)
    (leads : Leads files.tree true linkLimit (startOf files.current p) front d .directory)
    (named : IsName name) (whole : steps p = front ++ [name]) :
    files.target? p = if ¬ p.IsLegal then .ok none
      else if pathLimit < Text.utf8Length p ∨ nameLimit < Text.utf8Length name then
        .error ⟨.nameTooLong, p⟩
      else .ok (files.tree.lookup? (d ++ [name])) := by
  have walked := (linkless.walks (leads.walks_name named.2.2.1 named.2.2.2) true).walk
  rw [← whole] at walked
  by_cases legal : p.IsLegal
  · rw [target?, locate_of_isLegal legal, walked, inside]
    by_cases longPath : pathLimit < Text.utf8Length p
    · simp [legal, longPath, isAbsence]
    by_cases longName : nameLimit < Text.utf8Length name
    · simp [legal, longPath, longName, isAbsence]
    cases files.tree.lookup? (d ++ [name]) <;> simp [legal, longPath, longName]
  · rw [if_pos legal, target?_of_not_isLegal legal]

/-- The path is that of a directory, or of a name in one. -/
def IsHoused (files : FileSystem) (p : Text) : Prop :=
  ∃ front d, Leads files.tree true linkLimit (startOf files.current p) front d .directory ∧
    (steps p = front ∨ ∃ name, IsName name ∧ steps p = front ++ [name])

/-- Where there was no file in a directory, there is one later only if it has been added. -/
theorem isFile_of_grows {after : FileTree} (linkless : files.tree.IsLinkless)
    (grows : files.tree.Grows after) (further : after.IsLinkless) (housed : files.IsHoused p)
    (absent : files.isFile p = .ok false)
    (aside : ∀ bytes, after.lookup? (files.placeOf p) = some (.file bytes) →
      files.tree.lookup? (files.placeOf p) = some (.file bytes)) :
    isFile { files with tree := after } p = .ok false := by
  obtain ⟨front, d, leads, whole | ⟨name, named, whole⟩⟩ := housed
  · subst whole
    have later : target? { files with tree := after } p = _ :=
      target?_of_directory (leads.grows grows)
    rw [isFile, later, ← target?_of_directory leads]
    exact absent
  · have place : files.placeOf p = d ++ [name] := by
      rw [placeOf, whole, List.foldl_concat, ← leads.last_eq linkless,
        plainStep_of_ne named.2.2.1 named.2.2.2]
    rw [place] at aside
    have before := target?_below linkless leads named whole
    have later : target? { files with tree := after } p = _ :=
      target?_below further (leads.grows grows) named whole
    rw [isFile, before] at absent
    rw [isFile, later]
    by_cases illegal : ¬ p.IsLegal
    · rw [if_pos illegal]
      rfl
    rw [if_neg illegal] at absent ⊢
    split at absent
    · cases absent
    rename_i short
    rw [if_neg short]
    cases found : after.lookup? (d ++ [name]) with
    | none => rfl
    | some entry =>
      cases entry with
      | file bytes =>
        rw [aside bytes found] at absent
        cases absent
      | directory => rfl
      | link target => rfl

theorem isFile_eq_true_iff :
    files.isFile p = .ok true ↔
      ∃ place bytes, files.locate true p = .ok (.entry place (.file bytes)) := by
  rw [isFile, target?]
  constructor
  · intro there
    split at there
    · rename_i place entry located
      cases entry with
      | file bytes => exact ⟨place, bytes, located⟩
      | directory => cases there
      | link target => cases there
    · cases there
    · split at there <;> cases there
  · rintro ⟨place, bytes, located⟩
    rw [located]
    rfl

/-- A file stays where it is when a tree grows. -/
theorem isFile_stays {after : FileTree} (grows : files.tree.Grows after)
    (there : files.isFile p = .ok true) : isFile { files with tree := after } p = .ok true := by
  obtain ⟨place, bytes, located⟩ := isFile_eq_true_iff.1 there
  exact isFile_eq_true_iff.2 ⟨place, bytes, locate_of_grows grows located⟩

end FileSystem
end ModuleAtlas
