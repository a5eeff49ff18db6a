import ModuleAtlas.FileTree.Walk
import ModuleAtlas.Proofs.FileTree.Locate
import ModuleAtlas.Proofs.Outcome
/-!
Changes elsewhere in a file tree. A walk looks at the places that it comes across and at no others
(`ComesAcross`), and so does the replacement of links. Where these hold what they held, a path leads
where it led, and its real path is what it was, however many links have come or gone (`Untouched`).
-/
namespace ModuleAtlas
open ModuleAtlas.Path (AreNames)

namespace FileTree
variable {tree other : FileTree} {place q : Place} {step target : Text} {todo rest : List Text}

/-! ## What a walk comes across -/

/-- The places that a walk comes across, however far it gets: where it starts, the links on the way
along its steps and along their targets, and what stands between them or would stand there. -/
inductive ComesAcross (tree : FileTree) : Place → List Text → Place → Prop
  | here {place : Place} {todo : List Text} : ComesAcross tree place todo place
  | plain {place q : Place} {step : Text} {rest : List Text}
    (noLink : ∀ target, tree.lookup? (place ++ [step]) ≠ some (.link target))
    (later : ComesAcross tree (plainStep place step) rest q) : ComesAcross tree place (step :: rest) q
  | link {place : Place} {step target : Text} {rest : List Text}
    (found : tree.lookup? (place ++ [step]) = some (.link target)) :
    ComesAcross tree place (step :: rest) (place ++ [step])
  | along {place q : Place} {step target : Text} {rest : List Text}
    (found : tree.lookup? (place ++ [step]) = some (.link target))
    (later : ComesAcross tree (startOf place target) (steps target ++ rest) q) :
    ComesAcross tree place (step :: rest) q

/-- Every place that a walk comes across holds in the other tree what it holds in this one. -/
def Spares (tree other : FileTree) (place : Place) (todo : List Text) : Prop :=
  ∀ q, ComesAcross tree place todo q → other.lookup? q = tree.lookup? q

theorem lookup?_dot (place : Place) : tree.lookup? (place ++ [(['.'] : Text)]) = none := by
  by_contra taken
  obtain ⟨entry, found⟩ := Option.ne_none_iff_exists'.1 taken
  exact (areNames_of_lookup? found ['.'] (by simp)).2.2.1 rfl

theorem lookup?_up (place : Place) : tree.lookup? (place ++ [(['.', '.'] : Text)]) = none := by
  by_contra taken
  obtain ⟨entry, found⟩ := Option.ne_none_iff_exists'.1 taken
  exact (areNames_of_lookup? found ['.', '.'] (by simp)).2.2.2 rfl

theorem plainStep_of_ne (noDot : step ≠ [.scalar '.']) (noUp : step ≠ (['.', '.'] : Text)) :
    plainStep place step = place ++ [step] := by
  rw [plainStep, if_neg noDot, if_neg noUp]

namespace Spares

theorem here (spares : Spares tree other place todo) : other.lookup? place = tree.lookup? place :=
  spares place .here

theorem plain (spares : Spares tree other place (step :: rest))
    (noLink : ∀ target, tree.lookup? (place ++ [step]) ≠ some (.link target)) :
    Spares tree other (plainStep place step) rest :=
  fun q later => spares q (.plain noLink later)

theorem dot (spares : Spares tree other place ([.scalar '.'] :: rest)) : Spares tree other place rest :=
  spares.plain (by simp [lookup?_dot])

theorem up (spares : Spares tree other place ((['.', '.'] : Text) :: rest)) :
    Spares tree other place.dropLast rest :=
  spares.plain (by simp [lookup?_up])

theorem along (spares : Spares tree other place (step :: rest))
    (found : tree.lookup? (place ++ [step]) = some (.link target)) :
    Spares tree other (startOf place target) (steps target ++ rest) :=
  fun q later => spares q (.along found later)

/-- What stands below the start of a walk is looked at before it is gone through. -/
theorem below (spares : Spares tree other place (step :: rest)) (noDot : step ≠ [.scalar '.'])
    (noUp : step ≠ (['.', '.'] : Text)) :
    other.lookup? (place ++ [step]) = tree.lookup? (place ++ [step]) := by
  by_cases link : ∃ target, tree.lookup? (place ++ [step]) = some (.link target)
  · obtain ⟨target, found⟩ := link
    exact spares _ (.link found)
  · rw [← plainStep_of_ne noDot noUp]
    exact spares _ (.plain (not_exists.1 link) .here)

theorem isDirectoryAt_eq (spares : Spares tree other place todo) :
    other.isDirectoryAt place = tree.isDirectoryAt place := by
  rw [isDirectoryAt, isDirectoryAt, spares.here]

theorem goesDown {entry : Entry} (spares : Spares tree other place (step :: rest))
    (down : GoesDown tree place step entry) : GoesDown other place step entry where
  real := spares.isDirectoryAt_eq ▸ down.real
  noDot := down.noDot
  noUp := down.noUp
  short := down.short
  found := (spares.below down.noDot down.noUp).trans down.found

theorem goesAmiss (spares : Spares tree other place (step :: rest))
    (amiss : GoesAmiss tree place step) : GoesAmiss other place step where
  real := spares.isDirectoryAt_eq ▸ amiss.real
  noDot := amiss.noDot
  noUp := amiss.noUp
  short := amiss.short
  free := (spares.below amiss.noDot amiss.noUp).trans amiss.free

end Spares

theorem ComesAcross.append (across : ComesAcross tree place todo q) (rest : List Text) :
    ComesAcross tree place (todo ++ rest) q := by
  induction across with
  | here => exact .here
  | plain noLink later ih => exact .plain noLink ih
  | link found => exact .link found
  | along found later ih =>
    rw [List.append_assoc] at ih
    exact .along found ih

theorem Spares.front (spares : Spares tree other place (todo ++ rest)) :
    Spares tree other place todo := fun q across => spares q (across.append rest)

/-! ## Walks -/

/-- A walk that comes across no change ends as it did. -/
theorem Walks.of_spares {followLast : Bool} {links : Nat} {outcome : Except FileCause Destination}
    (walks : Walks tree followLast links place todo outcome) (spares : Spares tree other place todo) :
    Walks other followLast links place todo outcome := by
  induction walks with
  | here found => exact .here (spares.here.trans found)
  | nowhere free => exact .nowhere (spares.here.trans free)
  | barred unreal => exact .barred (by rwa [spares.isDirectoryAt_eq])
  | dot real _ ih => exact .dot (spares.isDirectoryAt_eq ▸ real) (ih spares.dot)
  | up real _ ih => exact .up (spares.isDirectoryAt_eq ▸ real) (ih spares.up)
  | long real noDot noUp long => exact .long (spares.isDirectoryAt_eq ▸ real) noDot noUp long
  | vacant amiss => exact .vacant (spares.goesAmiss amiss)
  | lost amiss more => exact .lost (spares.goesAmiss amiss) more
  | down down noLink _ ih =>
    have plain := spares.plain fun target link =>
      noLink target (Option.some.inj (down.found.symm.trans link))
    rw [plainStep_of_ne down.noDot down.noUp] at plain
    exact .down (spares.goesDown down) noLink (ih plain)
  | stay down stays => exact .stay (spares.goesDown down) stays
  | spent down goes => exact .spent (spares.goesDown down) goes
  | along down goes _ ih => exact .along (spares.goesDown down) goes (ih (spares.along down.found))

theorem walk_of_spares (followLast : Bool) (links : Nat) (spares : Spares tree other place todo) :
    walk other followLast links place todo = walk tree followLast links place todo :=
  ((walks links place todo).of_spares spares).walk

/-! ## The replacement of links -/

/-- What one link is replaced by, when so many links may still be under way with these. -/
def replace (tree : FileTree) :
    Nat → (underWay : List Place) → (link directory : Place) → (target : Text) → Place × Bool
  | 0, _, link, _, _ => (link, false)
  | count + 1, underWay, link, directory, target =>
    if underWay.contains link then (link, false)
    else real tree count (link :: underWay) (startOf directory target) (steps target)

theorem real_eq_realWith (tree : FileTree) (count : Nat) (underWay : List Place) :
    real tree count underWay = realWith (replace tree count underWay) tree := by
  cases count <;> rfl

section
variable {resolve otherResolve : Place → Place → Text → Place × Bool}

/-- Where links lead that are replaced, a walk along their targets comes across what one from there
does. -/
def LeadsOn (tree : FileTree) (resolve : Place → Place → Text → Place × Bool) : Prop :=
  ∀ link directory target reached rest q, resolve link directory target = (reached, true) →
    ComesAcross tree reached rest q →
    ComesAcross tree (startOf directory target) (steps target ++ rest) q

theorem LeadsOn.realWith (leadsOn : LeadsOn tree resolve) {reached : Place}
    (ended : realWith resolve tree place todo = (reached, true))
    (across : ComesAcross tree reached rest q) : ComesAcross tree place (todo ++ rest) q := by
  induction todo generalizing place with
  | nil =>
    cases ended
    exact across
  | cons step todo ih =>
    rw [FileTree.realWith] at ended
    split at ended
    · rename_i plain
      refine .plain (fun target link => ?_) (ih ended)
      simp only [Bool.or_eq_true, decide_eq_true_eq] at plain
      rcases plain with rfl | rfl
      · simp [lookup?_dot] at link
      · simp [lookup?_up] at link
    · rename_i named
      simp only [Bool.or_eq_true, decide_eq_true_eq, not_or] at named
      split at ended
      · rename_i target found
        split at ended
        · rename_i resolved
          exact .along found (leadsOn _ _ _ _ _ _ resolved (ih ended))
        · cases ended
      · rename_i noLink
        refine .plain (fun target link => noLink target link) ?_
        rw [plainStep_of_ne named.1 named.2]
        exact ih ended

theorem leadsOn_replace (tree : FileTree) (count : Nat) (underWay : List Place) :
    LeadsOn tree (replace tree count underWay) := by
  induction count generalizing underWay with
  | zero =>
    intro link directory target reached rest q resolved across
    cases resolved
  | succ count ih =>
    intro link directory target reached rest q resolved across
    rw [replace] at resolved
    split at resolved
    · cases resolved
    · rw [real_eq_realWith] at resolved
      exact (ih (link :: underWay)).realWith resolved across

/-- Links are replaced as they were if no change is come across. -/
theorem realWith_of_spares (leadsOn : LeadsOn tree resolve)
    (same : ∀ link directory target, Spares tree other (startOf directory target) (steps target) →
      otherResolve link directory target = resolve link directory target)
    (spares : Spares tree other place todo) :
    realWith otherResolve other place todo = realWith resolve tree place todo := by
  induction todo generalizing place with
  | nil => rfl
  | cons step todo ih =>
    rw [realWith, realWith]
    by_cases dot : step = [.scalar '.']
    · subst dot
      exact ih spares.dot
    by_cases up : step = (['.', '.'] : Text)
    · subst up
      exact ih spares.up
    rw [if_neg (by simp [dot, up]), if_neg (by simp [dot, up]), spares.below dot up]
    split
    · rename_i target found
      rw [same _ _ _ (spares.along found).front]
      split
      · rename_i resolved
        exact ih fun q across => spares q (.along found (leadsOn _ _ _ _ _ q resolved across))
      · rfl
    · rename_i noLink
      have plain := spares.plain fun target link => noLink target link
      rw [plainStep_of_ne dot up] at plain
      exact ih plain

theorem real_of_spares (count : Nat) (underWay : List Place) (spares : Spares tree other place todo) :
    real other count underWay place todo = real tree count underWay place todo := by
  induction count generalizing underWay place todo with
  | zero => exact realWith_of_spares (leadsOn_replace tree 0 underWay) (fun _ _ _ _ => rfl) spares
  | succ count ih =>
    refine realWith_of_spares (leadsOn_replace tree (count + 1) underWay) (fun _ _ _ spares => ?_)
      spares
    simp only [ih _ spares]

/-! ## The number of links -/

theorem realWith_congr (same : ∀ link directory target, tree.lookup? link = some (.link target) →
      otherResolve link directory target = resolve link directory target) :
    realWith otherResolve tree place todo = realWith resolve tree place todo := by
  induction todo generalizing place with
  | nil => rfl
  | cons step todo ih =>
    simp only [realWith, ih]
    congr 1
    split
    · rename_i target found
      rw [same _ _ _ found]
    · rfl

/-- The places are places of links, each of them once. -/
structure AreLinks (tree : FileTree) (places : List Place) : Prop where
  distinct : places.Nodup
  links : ∀ place ∈ places, ∃ target, tree.lookup? place = some (.link target)

theorem AreLinks.cons {places : List Place} (links : AreLinks tree places) (new : place ∉ places)
    (found : tree.lookup? place = some (.link target)) : AreLinks tree (place :: places) where
  distinct := List.nodup_cons.2 ⟨new, links.distinct⟩
  links := List.forall_mem_cons.2 ⟨⟨target, found⟩, links.links⟩

theorem AreLinks.length_le {places : List Place} (links : AreLinks tree places) :
    places.length ≤ tree.linkCount := by
  rw [linkCount, List.countP_eq_length_filter, ← List.length_map Prod.fst]
  refine (List.subperm_of_subset links.distinct fun place inside => ?_).length_le
  obtain ⟨target, found⟩ := links.links place inside
  have below : place ≠ [] := by
    rintro rfl
    cases found
  exact List.mem_map.2 ⟨_, List.mem_filter.2 ⟨mem_of_lookup? below found, rfl⟩, rfl⟩

/-- More links than the tree has are never under way, so it does not matter how many more may be. -/
theorem real_succ {count : Nat} {underWay : List Place} (links : AreLinks tree underWay)
    (many : tree.linkCount < count + underWay.length) :
    real tree (count + 1) underWay place todo = real tree count underWay place todo := by
  induction count generalizing underWay place todo with
  | zero => exact absurd links.length_le (by omega)
  | succ count ih =>
    refine realWith_congr fun link directory target found => ?_
    split
    · rfl
    · rename_i new
      refine ih (links.cons (by simpa using new) found) ?_
      rw [List.length_cons]
      omega

theorem real_of_le {count : Nat} (many : tree.linkCount + 1 ≤ count) :
    real tree count [] place todo = real tree (tree.linkCount + 1) [] place todo := by
  induction count, many using Nat.le_induction with
  | base => rfl
  | succ count many ih =>
    rw [← ih]
    exact real_succ ⟨by simp, by simp⟩ many

/-- Links that come or go elsewhere change nothing. -/
theorem real_eq_of_spares (spares : Spares tree other place todo) :
    real other (other.linkCount + 1) [] place todo = real tree (tree.linkCount + 1) [] place todo := by
  rw [← real_of_le (le_max_left _ (tree.linkCount + 1)),
    ← real_of_le (le_max_right (other.linkCount + 1) _)]
  exact real_of_spares _ [] spares

end

/-! ## Trees without links -/

/-- The place where steps start, and those they lead through if no links are followed. -/
def placesAlong (place : Place) : List Text → List Place
  | [] => [place]
  | step :: rest => place :: placesAlong (plainStep place step) rest

/-- In a tree without links a walk comes across the places along its steps and no others. -/
theorem mem_placesAlong (linkless : tree.linkCount = 0) (across : ComesAcross tree place todo q) :
    q ∈ placesAlong place todo := by
  have noLink : ∀ place target, tree.lookup? place ≠ some (.link target) := by
    intro place target found
    have links : AreLinks tree [place] := ⟨by simp, by simpa using ⟨target, found⟩⟩
    simpa [linkless] using links.length_le
  induction across with
  | @here place todo => cases todo <;> simp [placesAlong]
  | plain _ _ ih => exact List.mem_cons_of_mem _ ih
  | link found => exact absurd found (noLink _ _)
  | along found => exact absurd found (noLink _ _)

end FileTree

namespace FileSystem
variable {files other : FileSystem} {p real : Text}

/-- At the path nothing has been changed: the places that it comes across hold what they held, and
access to what stands there is granted as it was. -/
structure Untouched (files other : FileSystem) (p : Text) : Prop where
  current : other.current = files.current
  spared : files.tree.Spares other.tree (FileTree.startOf files.current p) (FileTree.steps p)
  access : other.unreadable.contains (files.fromRoot p) = files.unreadable.contains (files.fromRoot p)

namespace Untouched

theorem of_linkless (linkless : files.tree.linkCount = 0) (current : other.current = files.current)
    (same : ∀ q ∈ FileTree.placesAlong (FileTree.startOf files.current p) (FileTree.steps p),
      other.tree.lookup? q = files.tree.lookup? q)
    (access : other.unreadable.contains (files.fromRoot p) =
      files.unreadable.contains (files.fromRoot p)) : Untouched files other p :=
  ⟨current, fun q across => same q (FileTree.mem_placesAlong linkless across), access⟩

theorem locate (untouched : Untouched files other p) (followLast : Bool) :
    other.locate followLast p = files.locate followLast p := by
  rw [FileSystem.locate, FileSystem.locate, untouched.current,
    FileTree.walk_of_spares followLast _ untouched.spared]

theorem target? (untouched : Untouched files other p) : other.target? p = files.target? p := by
  rw [FileSystem.target?, FileSystem.target?, untouched.locate]

theorem isFile (untouched : Untouched files other p) : other.isFile p = files.isFile p := by
  rw [FileSystem.isFile, FileSystem.isFile, untouched.target?]

theorem text? (untouched : Untouched files other p) : other.text? p = files.text? p := by
  have sameRoot : other.fromRoot p = files.fromRoot p := by
    rw [fromRoot, fromRoot, untouched.current]
  rw [FileSystem.text?, FileSystem.text?, bytes, bytes, sameRoot, untouched.access,
    untouched.locate]

/-- The real path is what it was, if nothing has been changed there either. -/
theorem realPath (untouched : Untouched files other p) (found : files.realPath p = .ok real)
    (there : Untouched files other real) : other.realPath p = .ok real := by
  obtain ⟨legal, same, noLoop⟩ := realPath_eq_ok_iff.1 found
  refine realPath_eq_ok_iff.2 ⟨legal, ?_, there.locate true ▸ noLoop⟩
  rw [same, reached, reached, untouched.current, FileTree.real_eq_of_spares untouched.spared]

end Untouched
end FileSystem
end ModuleAtlas
