import ModuleAtlas.FileTree.Walk
import ModuleAtlas.Proofs.FileTree.Walk
import ModuleAtlas.Proofs.Path.Legal
/-!
Real paths are paths of places whose parts are names: neither empty segments nor steps are left
in them, whatever links were followed (`realPath_eq_path`).
-/
namespace ModuleAtlas
open ModuleAtlas.Path

namespace FileTree

theorem areNames_of_mem (tree : FileTree) {entry : Place × Entry} (inside : entry ∈ tree.entries) :
    AreNames entry.1 :=
  fun name part => isName_of_isEntryName ((tree.named entry inside).2 name part)

theorem areNames_of_lookup? {tree : FileTree} {place : Place} {entry : Entry}
    (found : tree.lookup? place = some entry) : AreNames place := by
  rw [lookup?] at found
  split at found
  · rename_i top
    simp [top, AreNames]
  · obtain ⟨held, here, _⟩ := Option.map_eq_some_iff.1 found
    have same : held.1 = place := by simpa using List.find?_some here
    rw [← same]
    exact areNames_of_mem tree (List.mem_of_find?_eq_some here)

/-- A walk that ends somewhere starts in the tree. -/
theorem areNames_of_walk {tree : FileTree} {followLast : Bool} {links : Nat} {place : Place}
    {todo : List Text} {destination : Destination}
    (ended : walk tree followLast links place todo = .ok destination) : AreNames place := by
  have started (real : tree.isDirectoryAt place) : AreNames place :=
    areNames_of_lookup? (by simpa [isDirectoryAt] using real)
  cases walks_iff.2 ended with
  | here found => exact areNames_of_lookup? found
  | dot real => exact started real
  | up real => exact started real
  | vacant amiss => exact started amiss.real
  | down down => exact started down.real
  | stay down => exact started down.real
  | along down => exact started down.real

/-- What can be a step of a path: a name, a dot or a step upwards. -/
def IsStep (step : Text) : Prop := step ≠ [] ∧ .scalar '/' ∉ step

theorem isStep_of_mem_steps {p step : Text} (inside : step ∈ steps p) : IsStep step := by
  rw [steps, List.mem_append] at inside
  rcases inside with piece | last
  · obtain ⟨cut, some⟩ := List.mem_filter.1 piece
    exact ⟨by simpa using some, Text.not_mem_of_mem_splitOn cut⟩
  · split at last
    · rw [List.mem_singleton.1 last]
      exact ⟨by simp, by simp⟩
    · simp at last

/-! ## What holds of the names of real paths -/

section
variable {P : Text → Prop}

/-- The step holds what is asked of names, unless it is a dot or a step upwards. -/
def Allows (P : Text → Prop) (step : Text) : Prop :=
  step ≠ [.scalar '.'] → step ≠ (['.', '.'] : Text) → P step

theorem forall_mem_plainStep {place : Place} {step : Text} (before : ∀ name ∈ place, P name)
    (allows : Allows P step) : ∀ name ∈ plainStep place step, P name := by
  rw [plainStep]
  split
  · exact before
  · rename_i noDot
    split
    · exact fun name inside => before name (List.dropLast_subset place inside)
    · rename_i noUp
      exact List.forall_mem_append.2 ⟨before, by simpa using allows noDot noUp⟩

theorem forall_mem_foldl_plainStep {steps : List Text} (allow : ∀ step ∈ steps, Allows P step)
    {place : Place} (before : ∀ name ∈ place, P name) :
    ∀ name ∈ steps.foldl plainStep place, P name := by
  induction steps generalizing place with
  | nil => exact before
  | cons step steps ih =>
    obtain ⟨first, later⟩ := List.forall_mem_cons.1 allow
    exact ih later (forall_mem_plainStep before first)

/-- Replacing the links among steps keeps to what is asked of names if replacing one link does. -/
theorem forall_mem_realWith {resolve : Place → Place → Text → Place × Bool} {tree : FileTree}
    (one : ∀ link directory target, tree.lookup? link = some (.link target) →
      (∀ name ∈ link, P name) → (∀ name ∈ directory, P name) →
      ∀ name ∈ (resolve link directory target).1, P name)
    {todo : List Text} (allow : ∀ step ∈ todo, Allows P step) {place : Place}
    (before : ∀ name ∈ place, P name) : ∀ name ∈ (realWith resolve tree place todo).1, P name := by
  induction todo generalizing place with
  | nil => exact before
  | cons step rest ih =>
    obtain ⟨first, later⟩ := List.forall_mem_cons.1 allow
    have stepped := forall_mem_plainStep before first
    rw [realWith]
    split
    · exact ih later stepped
    · rename_i named
      have down : plainStep place step = place ++ [step] := by
        simp only [Bool.or_eq_true, decide_eq_true_eq, not_or] at named
        rw [plainStep, if_neg named.1, if_neg named.2]
      rw [down] at stepped
      split
      · rename_i target found
        have followed := one (place ++ [step]) place target found stepped before
        split
        · rename_i reached here
          rw [here] at followed
          exact ih later followed
        · rename_i reached here
          rw [here] at followed
          exact forall_mem_foldl_plainStep later followed
      · exact ih later stepped

/-- The names of a real path are those it starts with, or steps, its own and those of links. -/
theorem forall_mem_real {tree : FileTree} (links : ∀ place target,
      tree.lookup? place = some (.link target) → ∀ step ∈ steps target, Allows P step)
    {count : Nat} {underWay : List Place} {place : Place} {todo : List Text}
    (before : ∀ name ∈ place, P name) (allow : ∀ step ∈ todo, Allows P step) :
    ∀ name ∈ (real tree count underWay place todo).1, P name := by
  induction count generalizing underWay place todo with
  | zero => exact forall_mem_realWith (fun _ _ _ _ held _ => held) allow before
  | succ count ih =>
    refine forall_mem_realWith (fun link directory target found held around => ?_) allow before
    split
    · exact held
    · refine ih ?_ (links link target found)
      rw [startOf]
      split
      · simp
      · exact around

end

theorem allows_isName {step : Text} (can : IsStep step) : Allows IsName step :=
  fun noDot noUp => ⟨can.1, can.2, noDot, noUp⟩

theorem areNames_real (tree : FileTree) {links : Nat} {underWay : List Place} {place : Place}
    {todo : List Text} (proper : AreNames place) (can : ∀ step ∈ todo, IsStep step) :
    AreNames (real tree links underWay place todo).1 :=
  forall_mem_real (fun _ _ _ _ inside => allows_isName (isStep_of_mem_steps inside)) proper
    fun step inside => allows_isName (can step inside)

end FileTree

namespace FileSystem
open FileTree
variable {files : FileSystem} {p real : Text}

theorem illegalStep?_eq_none_iff : files.illegalStep? p = none ↔ p.IsLegal := by
  simp only [illegalStep?, List.findSome?_eq_none_iff, Option.map_eq_none_iff,
    FileCause.ofText?_eq_none_iff]
  exact isLegal_steps_iff

theorem realPath_of_isLegal (legal : p.IsLegal) : files.realPath p =
    match files.locate true (Place.path (files.reached p (steps p))) with
    | .error .tooManyLinks => .error ⟨.linkLoop, Place.path (files.reached p (steps p))⟩
    | _ => .ok (Place.path (files.reached p (steps p))) := by
  rewrite [realPath, illegalStep?_eq_none_iff.2 legal]
  rfl

/-- A real path is the path of the place that is reached, if no links go in a circle. -/
theorem realPath_eq_ok_iff : files.realPath p = .ok real ↔
    p.IsLegal ∧ real = Place.path (files.reached p (steps p)) ∧
      files.locate true real ≠ .error .tooManyLinks := by
  by_cases legal : p.IsLegal
  · rw [realPath_of_isLegal legal]
    split
    · rename_i circle
      exact ⟨nofun, fun ⟨_, same, noLoop⟩ => absurd (same ▸ circle) noLoop⟩
    · rename_i noLoop
      constructor
      · intro same
        cases same
        exact ⟨legal, rfl, noLoop⟩
      · rintro ⟨-, rfl, -⟩
        rfl
  · constructor
    · intro found
      rw [realPath] at found
      split at found
      · cases found
      · rename_i none
        exact absurd (illegalStep?_eq_none_iff.1 none) legal
    · exact fun ⟨also, _⟩ => absurd also legal

theorem areNames_reached (started : AreNames (startOf files.current p)) (todo : List Text)
    (can : ∀ step ∈ todo, IsStep step) : AreNames (files.reached p todo) :=
  areNames_real files.tree started can

end FileSystem

/-- The real path of a path that leads somewhere is the path of a place of names. -/
theorem FileSystem.realPath_eq_path {files : FileSystem} {p real : Text} {entry : Entry}
    (leads : files.target? p = .ok (some entry)) (found : files.realPath p = .ok real) :
    ∃ place : Place, AreNames place ∧ real = place.path := by
  have started : AreNames (FileTree.startOf files.current p) := by
    rw [target?] at leads
    split at leads
    · rename_i place entry located
      rw [locate_of_isLegal (isLegal_of_locate located)] at located
      split at located
      · simp at located
      · exact FileTree.areNames_of_walk located
    · simp at leads
    · split at leads <;> simp at leads
  exact ⟨_, areNames_reached started _ fun step inside => FileTree.isStep_of_mem_steps inside,
    (realPath_eq_ok_iff.1 found).2.1⟩

end ModuleAtlas
