import ModuleAtlas.FileTree.Walk
/-!
How walks go. Each step of a walk bars it, loses it, ends it or takes it to another place, and a walk
is the row of its steps (`walks`). Whatever holds of where walks lead or of why they fail is an
induction on `Walks`, with one case for each step that can be taken.
-/
namespace ModuleAtlas

namespace FileTree

/-- The step goes down to an entry of the directory, with a name that is not too long. -/
structure GoesDown (tree : FileTree) (place : Place) (step : Text) (entry : Entry) : Prop where
  real : tree.isDirectoryAt place
  noDot : step ≠ [.scalar '.']
  noUp : step ≠ (['.', '.'] : Text)
  short : ¬ nameLimit < Text.utf8Length step
  found : tree.lookup? (place ++ [step]) = some entry

/-- The step is a name that the directory lacks. -/
structure GoesAmiss (tree : FileTree) (place : Place) (step : Text) : Prop where
  real : tree.isDirectoryAt place
  noDot : step ≠ [.scalar '.']
  noUp : step ≠ (['.', '.'] : Text)
  short : ¬ nameLimit < Text.utf8Length step
  free : tree.lookup? (place ++ [step]) = none

/-- What a walk comes to that follows so many links at most. -/
inductive Walks (tree : FileTree) (followLast : Bool) :
    Nat → Place → List Text → Except FileCause Destination → Prop
  | here {links : Nat} {place : Place} {entry : Entry} (found : tree.lookup? place = some entry) :
    Walks tree followLast links place [] (.ok (.entry place entry))
  | nowhere {links : Nat} {place : Place} (free : tree.lookup? place = none) :
    Walks tree followLast links place [] (.error .missing)
  | barred {links : Nat} {place : Place} {step : Text} {rest : List Text}
    (unreal : ¬ tree.isDirectoryAt place) :
    Walks tree followLast links place (step :: rest) (.error .notDirectory)
  | dot {links : Nat} {place : Place} {rest : List Text} {outcome : Except FileCause Destination}
    (real : tree.isDirectoryAt place) (further : Walks tree followLast links place rest outcome) :
    Walks tree followLast links place ([.scalar '.'] :: rest) outcome
  | up {links : Nat} {place : Place} {rest : List Text} {outcome : Except FileCause Destination}
    (real : tree.isDirectoryAt place)
    (further : Walks tree followLast links place.dropLast rest outcome) :
    Walks tree followLast links place ((['.', '.'] : Text) :: rest) outcome
  | long {links : Nat} {place : Place} {step : Text} {rest : List Text}
    (real : tree.isDirectoryAt place) (noDot : step ≠ [.scalar '.']) (noUp : step ≠ (['.', '.'] : Text))
    (long : nameLimit < Text.utf8Length step) :
    Walks tree followLast links place (step :: rest) (.error .nameTooLong)
  | vacant {links : Nat} {place : Place} {step : Text} (amiss : GoesAmiss tree place step) :
    Walks tree followLast links place [step] (.ok (.vacancy place step))
  | lost {links : Nat} {place : Place} {step : Text} {rest : List Text}
    (amiss : GoesAmiss tree place step) (more : rest ≠ []) :
    Walks tree followLast links place (step :: rest) (.error .missing)
  | down {links : Nat} {place : Place} {step : Text} {rest : List Text} {between : Entry}
    {outcome : Except FileCause Destination} (down : GoesDown tree place step between)
    (noLink : ∀ target, between ≠ .link target)
    (further : Walks tree followLast links (place ++ [step]) rest outcome) :
    Walks tree followLast links place (step :: rest) outcome
  | stay {links : Nat} {place : Place} {step target : Text}
    (down : GoesDown tree place step (.link target)) (stays : followLast = false) :
    Walks tree followLast links place [step] (.ok (.entry (place ++ [step]) (.link target)))
  | spent {place : Place} {step target : Text} {rest : List Text}
    (down : GoesDown tree place step (.link target)) (goes : rest ≠ [] ∨ followLast = true) :
    Walks tree followLast 0 place (step :: rest) (.error .tooManyLinks)
  | along {links : Nat} {place : Place} {step target : Text} {rest : List Text}
    {outcome : Except FileCause Destination} (down : GoesDown tree place step (.link target))
    (goes : rest ≠ [] ∨ followLast = true)
    (further : Walks tree followLast links (startOf place target) (steps target ++ rest) outcome) :
    Walks tree followLast (links + 1) place (step :: rest) outcome

variable {tree : FileTree} {followLast : Bool} {links : Nat} {place : Place} {step : Text}
  {todo : List Text} {entry : Entry} {outcome : Except FileCause Destination}

/-! ## One step -/

/-- The steps that can be taken from a directory. -/
theorem step_cases (real : tree.isDirectoryAt place) (step : Text) :
    step = [.scalar '.'] ∨ step = (['.', '.'] : Text) ∨
      (step ≠ [.scalar '.'] ∧ step ≠ (['.', '.'] : Text) ∧ nameLimit < Text.utf8Length step) ∨
      GoesAmiss tree place step ∨ ∃ entry, GoesDown tree place step entry := by
  by_cases dot : step = [.scalar '.']
  · exact .inl dot
  by_cases up : step = (['.', '.'] : Text)
  · exact .inr (.inl up)
  by_cases long : nameLimit < Text.utf8Length step
  · exact .inr (.inr (.inl ⟨dot, up, long⟩))
  cases found : tree.lookup? (place ++ [step]) with
  | none => exact .inr (.inr (.inr (.inl ⟨real, dot, up, long, found⟩)))
  | some entry => exact .inr (.inr (.inr (.inr ⟨entry, real, dot, up, long, found⟩)))

/-- What comes of going on from a link, when so many links may still be followed. -/
def walkOn (tree : FileTree) (followLast : Bool) : Nat → Place → List Text → Except FileCause Destination
  | 0 => fun _ _ => .error .tooManyLinks
  | links + 1 => walk tree followLast links

theorem walk_eq_walkWith (tree : FileTree) (followLast : Bool) (links : Nat) :
    walk tree followLast links = walkWith (walkOn tree followLast links) tree followLast := by
  cases links <;> rfl

theorem walk_barred (unreal : ¬ tree.isDirectoryAt place) (step : Text) (rest : List Text) :
    walk tree followLast links place (step :: rest) = .error .notDirectory := by
  rw [walk_eq_walkWith, walkWith, if_pos (by simpa using unreal)]

theorem walk_dot (real : tree.isDirectoryAt place) (rest : List Text) :
    walk tree followLast links place ([.scalar '.'] :: rest) =
      walk tree followLast links place rest := by
  rw [walk_eq_walkWith, walkWith, if_neg (by simpa using real), if_pos rfl]

theorem walk_up (real : tree.isDirectoryAt place) (rest : List Text) :
    walk tree followLast links place ((['.', '.'] : Text) :: rest) =
      walk tree followLast links place.dropLast rest := by
  rw [walk_eq_walkWith, walkWith, if_neg (by simpa using real), if_neg (by simp), if_pos rfl]

theorem walk_long (real : tree.isDirectoryAt place) (noDot : step ≠ [.scalar '.'])
    (noUp : step ≠ (['.', '.'] : Text))
    (long : nameLimit < Text.utf8Length step) (rest : List Text) :
    walk tree followLast links place (step :: rest) = .error .nameTooLong := by
  rw [walk_eq_walkWith, walkWith, if_neg (by simpa using real), if_neg noDot, if_neg noUp, if_pos long]

theorem walk_amiss (amiss : GoesAmiss tree place step) (rest : List Text) :
    walk tree followLast links place (step :: rest) =
      if rest = [] then .ok (.vacancy place step) else .error .missing := by
  rw [walk_eq_walkWith, walkWith, if_neg (by simpa using amiss.real), if_neg amiss.noDot,
    if_neg amiss.noUp, if_neg amiss.short, amiss.free]
  simp

theorem walk_down (down : GoesDown tree place step entry) (noLink : ∀ target, entry ≠ .link target)
    (rest : List Text) : walk tree followLast links place (step :: rest) =
      walk tree followLast links (place ++ [step]) rest := by
  rw [walk_eq_walkWith, walkWith, if_neg (by simpa using down.real), if_neg down.noDot,
    if_neg down.noUp, if_neg down.short, down.found]
  cases entry with
  | link target => exact absurd rfl (noLink target)
  | file bytes => rfl
  | directory => rfl

theorem walk_link {target : Text} (down : GoesDown tree place step (.link target)) (rest : List Text) :
    walk tree followLast links place (step :: rest) =
      if rest = [] ∧ followLast = false then .ok (.entry (place ++ [step]) (.link target))
      else walkOn tree followLast links (startOf place target) (steps target ++ rest) := by
  rw [walk_eq_walkWith, walkWith, if_neg (by simpa using down.real), if_neg down.noDot,
    if_neg down.noUp, if_neg down.short, down.found]
  simp

/-! ## Whole walks -/

/-- A walk goes step by step if it does from wherever links lead. -/
theorem walks_of_followed (followed : ∀ place step target rest,
      GoesDown tree place step (.link target) → rest ≠ [] ∨ followLast = true →
        Walks tree followLast links place (step :: rest)
          (walkOn tree followLast links (startOf place target) (steps target ++ rest)))
    (place : Place) (todo : List Text) :
    Walks tree followLast links place todo (walk tree followLast links place todo) := by
  -- The steps get fewer until a link is followed, whose own steps are the matter of `followed`.
  induction todo generalizing place with
  | nil =>
    rw [walk_eq_walkWith, walkWith]
    cases found : tree.lookup? place with
    | some entry => exact .here found
    | none => exact .nowhere found
  | cons step rest ih =>
    by_cases real : tree.isDirectoryAt place
    · rcases step_cases real step with rfl | rfl | ⟨noDot, noUp, long⟩ | amiss | ⟨entry, down⟩
      · rw [walk_dot real]
        exact .dot real (ih place)
      · rw [walk_up real]
        exact .up real (ih place.dropLast)
      · rw [walk_long real noDot noUp long]
        exact .long real noDot noUp long
      · rw [walk_amiss amiss]
        split
        · rename_i ends
          rw [ends]
          exact .vacant amiss
        · rename_i more
          exact .lost amiss more
      · by_cases link : ∃ target, entry = .link target
        · obtain ⟨target, rfl⟩ := link
          rw [walk_link down]
          split
          · rename_i ends
            rw [ends.1]
            exact .stay down ends.2
          · rename_i goes
            rw [Classical.not_and_iff_not_or_not, Bool.not_eq_false] at goes
            exact followed place step target rest down goes
        · rw [walk_down down (not_exists.1 link)]
          exact .down down (not_exists.1 link) (ih (place ++ [step]))
    · rw [walk_barred real]
      exact .barred real

/-- Walks go step by step. -/
theorem walks (links : Nat) (place : Place) (todo : List Text) :
    Walks tree followLast links place todo (walk tree followLast links place todo) := by
  induction links generalizing place todo with
  | zero => exact walks_of_followed (fun _ _ _ _ down goes => .spent down goes) place todo
  | succ links ih =>
    exact walks_of_followed (fun _ _ _ _ down goes => .along down goes (ih _ _)) place todo

/-- A walk comes to one thing only. -/
theorem Walks.walk (walks : Walks tree followLast links place todo outcome) :
    walk tree followLast links place todo = outcome := by
  have goesOn {rest : List Text} (goes : rest ≠ [] ∨ followLast = true) :
      ¬ (rest = [] ∧ followLast = false) := by
    rwa [Classical.not_and_iff_not_or_not, Bool.not_eq_false]
  induction walks with
  | here found => rw [walk_eq_walkWith, walkWith, found]
  | nowhere free => rw [walk_eq_walkWith, walkWith, free]
  | barred unreal => exact walk_barred unreal _ _
  | dot real _ ih => rw [walk_dot real, ih]
  | up real _ ih => rw [walk_up real, ih]
  | long real noDot noUp long => exact walk_long real noDot noUp long _
  | vacant amiss => rw [walk_amiss amiss, if_pos rfl]
  | lost amiss more => rw [walk_amiss amiss, if_neg more]
  | down down noLink _ ih => rw [walk_down down noLink, ih]
  | stay down stays => rw [walk_link down, if_pos ⟨rfl, stays⟩]
  | spent down goes => rw [walk_link down, if_neg (goesOn goes), walkOn]
  | along down goes _ ih => rw [walk_link down, if_neg (goesOn goes), walkOn, ih]

theorem walks_iff : Walks tree followLast links place todo outcome ↔
    walk tree followLast links place todo = outcome :=
  ⟨Walks.walk, fun walked => walked ▸ walks links place todo⟩

end FileTree
end ModuleAtlas
