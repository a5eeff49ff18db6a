import ModuleAtlas.FileTree.Access
import ModuleAtlas.Proofs.FileTree.RealPath
import ModuleAtlas.Proofs.Text.Order
/-!
Where the path of a place leads that holds an entry: to this entry, since everything above an entry
is a directory (`locate_of_lookup?`). Only a link at the very end leads elsewhere, and a path with
too long a name in it, or too long altogether, leads nowhere at all (`locate_of_not_fits`).
-/
namespace ModuleAtlas
open ModuleAtlas.Path (IsName AreNames)

namespace FileTree
variable {tree : FileTree}

/-! ## Entries and the directories above them -/

theorem mem_of_lookup? {place : Place} {entry : Entry} (below : place ≠ [])
    (found : tree.lookup? place = some entry) : (place, entry) ∈ tree.entries := by
  rw [lookup?, if_neg below] at found
  obtain ⟨held, here, rfl⟩ := Option.map_eq_some_iff.1 found
  have same : held.1 = place := by simpa using List.find?_some here
  rw [← same]
  exact List.mem_of_find?_eq_some here

theorem lookup?_of_mem {place : Place} {entry : Entry} (inside : (place, entry) ∈ tree.entries) :
    tree.lookup? place = some entry := by
  have below := (tree.named _ inside).1
  cases found : tree.entries.find? fun entry => entry.1 == place with
  | none => simpa using List.find?_eq_none.1 found _ inside
  | some held =>
    have same : held.1 = place := by simpa using List.find?_some found
    have only := List.inj_on_of_nodup_map tree.distinct (List.mem_of_find?_eq_some found) inside same
    rw [lookup?, if_neg below, found, only]
    rfl

/-- What stands above an entry is a directory. -/
theorem isDirectoryAt_of_lookup? {place : Place} {name : Text} {entry : Entry}
    (found : tree.lookup? (place ++ [name]) = some entry) : tree.isDirectoryAt place := by
  have held := mem_of_lookup? (by simp) found
  rw [isDirectoryAt, beq_iff_eq]
  rcases tree.housed _ held with top | house
  · rw [List.dropLast_concat] at top
    rw [top]
    rfl
  · rw [List.dropLast_concat] at house
    exact lookup?_of_mem house

theorem isDirectoryAt_append {front back : Place} {entry : Entry} (below : back ≠ [])
    (found : tree.lookup? (front ++ back) = some entry) : tree.isDirectoryAt front := by
  induction back using List.reverseRecOn generalizing entry with
  | nil => exact absurd rfl below
  | append_singleton back name ih =>
    rw [← List.append_assoc] at found
    have above := isDirectoryAt_of_lookup? found
    by_cases more : back = []
    · rwa [more, List.append_nil] at above
    · exact ih more (by simpa [isDirectoryAt] using above)

/-- The names in a directory are those of the entries in it. -/
theorem mem_names_iff {directory : Place} {name : Text} :
    name ∈ tree.names directory ↔ (tree.lookup? (directory ++ [name])).isSome := by
  rw [names, (Text.sort_perm _).mem_iff, List.mem_filterMap, Option.isSome_iff_exists]
  constructor
  · rintro ⟨⟨place, entry⟩, held, here⟩
    rw [nameIn?] at here
    split at here
    · rename_i house
      have whole := List.dropLast_append_getLast? name here
      simp only at house whole
      rw [← house, whole]
      exact ⟨entry, lookup?_of_mem held⟩
    · cases here
  · rintro ⟨entry, found⟩
    exact ⟨_, mem_of_lookup? (by simp) found, by simp [nameIn?]⟩

/-! ## The order of the entries -/

section
variable {other : FileTree} (same : other.entries.Perm tree.entries)
include same

theorem lookup?_of_perm (place : Place) : other.lookup? place = tree.lookup? place := by
  by_cases top : place = []
  · rw [lookup?, lookup?, if_pos top, if_pos top]
  · ext entry
    constructor
    · exact fun found => lookup?_of_mem (same.mem_iff.1 (mem_of_lookup? top found))
    · exact fun found => lookup?_of_mem (same.mem_iff.2 (mem_of_lookup? top found))

theorem names_of_perm (directory : Place) : other.names directory = tree.names directory := by
  refine Text.eq_of_perm_of_sorted id (fun _ _ _ _ here => here) ?_ (Text.sort_sorted _)
    (Text.sort_sorted _)
  exact (Text.sort_perm _).trans ((same.filterMap _).trans (Text.sort_perm _).symm)

theorem walkWith_of_perm (follow : Place → List Text → Except FileCause Destination)
    (followLast : Bool) (place : Place) (todo : List Text) :
    walkWith follow other followLast place todo = walkWith follow tree followLast place todo := by
  induction todo generalizing place with
  | nil => rw [walkWith, walkWith, lookup?_of_perm same]
  | cons step rest ih =>
    simp only [walkWith, isDirectoryAt, lookup?_of_perm same, ih]
    rfl

theorem walk_of_perm (followLast : Bool) (links : Nat) :
    walk other followLast links = walk tree followLast links := by
  funext place todo
  induction links generalizing place todo with
  | zero => exact walkWith_of_perm same ..
  | succ links ih =>
    have follow : walk other followLast links = walk tree followLast links :=
      funext fun place => funext fun todo => ih place todo
    rw [walk, walk, follow]
    exact walkWith_of_perm same ..

end

/-! ## Steps -/

/-- The steps of the path of a place below the root are its names. -/
theorem steps_path {place : Place} (proper : AreNames place) (below : place ≠ []) :
    steps place.path = place := by
  have cut : Text.splitOn '/' place.path = [] :: place := by
    have none : ∀ name ∈ place, .scalar '/' ∉ name := fun name inside => (proper name inside).2.1
    rw [Place.path, Text.splitOn, if_pos rfl, Text.splitOn_joinWith below none]
  have full : place.filter (!·.isEmpty) = place := by
    rw [List.filter_eq_self]
    intro name inside
    simpa using (proper name inside).1
  have ending := Path.getLast?_path proper below
  rw [steps, cut, List.filter_cons_of_neg (by simp), full, if_neg (by simpa using ending),
    List.append_nil]

/-- No name of the place is too long. -/
def FitsNames (place : Place) : Prop := ∀ name ∈ place, Text.utf8Length name ≤ nameLimit

section
variable {followLast : Bool} {links : Nat} {front back : Place} {entry : Entry}

/-- A walk along the names of an entry ends at it, unless it has to go on along a link. -/
theorem walks_of_lookup? (here : tree.isDirectoryAt front)
    (found : tree.lookup? (front ++ back) = some entry) (proper : AreNames back)
    (short : FitsNames back) (stays : followLast = false ∨ ∀ target, entry ≠ .link target) :
    Walks tree followLast links front back (.ok (.entry (front ++ back) entry)) := by
  induction back generalizing front with
  | nil =>
    rw [List.append_nil] at found ⊢
    exact .here found
  | cons name back ih =>
    obtain ⟨⟨_, _, noDot, noUp⟩, properBack⟩ := List.forall_mem_cons.1 proper
    obtain ⟨fits, shortBack⟩ := List.forall_mem_cons.1 short
    have goesDown {other : Entry} (held : tree.lookup? (front ++ [name]) = some other) :
        GoesDown tree front name other := ⟨here, noDot, noUp, Nat.not_lt.2 fits, held⟩
    by_cases last : back = []
    · subst last
      by_cases link : ∃ target, entry = .link target
      · obtain ⟨target, rfl⟩ := link
        exact .stay (goesDown found) (stays.resolve_right fun other => other target rfl)
      · exact .down (goesDown found) (not_exists.1 link) (.here found)
    · rw [List.append_cons] at found ⊢
      have above := isDirectoryAt_append last found
      have directory : tree.lookup? (front ++ [name]) = some .directory := by
        simpa [isDirectoryAt] using above
      exact .down (goesDown directory) (by simp) (ih above found properBack shortBack)

/-- A walk along the names of an entry ends at a name that is too long. -/
theorem walks_of_not_fits (here : tree.isDirectoryAt front)
    (found : tree.lookup? (front ++ back) = some entry) (proper : AreNames back)
    (long : ¬ FitsNames back) : Walks tree followLast links front back (.error .nameTooLong) := by
  induction back generalizing front with
  | nil => exact absurd (by simp [FitsNames]) long
  | cons name back ih =>
    obtain ⟨⟨_, _, noDot, noUp⟩, properBack⟩ := List.forall_mem_cons.1 proper
    by_cases tooLong : nameLimit < Text.utf8Length name
    · exact .long here noDot noUp tooLong
    have longBack : ¬ FitsNames back := fun short =>
      long (List.forall_mem_cons.2 ⟨Nat.not_lt.1 tooLong, short⟩)
    have last : back ≠ [] := by
      rintro rfl
      exact longBack (by simp [FitsNames])
    rw [List.append_cons] at found
    have above := isDirectoryAt_append last found
    have directory : tree.lookup? (front ++ [name]) = some .directory := by
      simpa [isDirectoryAt] using above
    exact .down ⟨here, noDot, noUp, tooLong, directory⟩ (by simp) (ih above found properBack longBack)

end

end FileTree

/-! ## Paths of entries -/

namespace FileSystem
open FileTree
variable {files : FileSystem} {place : Place} {entry : Entry}

/-- Neither the path of the place nor a name in it is too long. -/
def Fits (place : Place) : Prop := Text.utf8Length place.path ≤ pathLimit ∧ FitsNames place

theorem isLegal_name (found : files.tree.lookup? place = some entry) :
    ∀ name ∈ place, name.IsLegal := by
  by_cases top : place = []
  · simp [top]
  · intro name inside
    have proper := (files.tree.named _ (mem_of_lookup? top found)).2 name inside
    exact (Path.isEntryName_iff.1 proper).2.2.1

theorem isLegal_path_of_names {place : Place} (clear : ∀ name ∈ place, name.IsLegal) :
    place.path.IsLegal :=
  Text.isLegal_cons.2 ⟨by decide, Path.isLegal_of_parts clear fun _ inside noSlash _ =>
    (Text.mem_joinWith_iff noSlash).1 inside⟩

theorem isLegal_path (found : files.tree.lookup? place = some entry) :
    place.path.IsLegal := isLegal_path_of_names (isLegal_name found)

theorem locate_eq (found : files.tree.lookup? place = some entry) (followLast : Bool) :
    files.locate followLast place.path =
      if pathLimit < Text.utf8Length place.path then .error .nameTooLong
      else files.tree.walk followLast linkLimit [] (steps place.path) := by
  rw [locate, FileCause.ofText?_eq_none_iff.2 (isLegal_path found)]
  rfl

/-- The path of an entry leads to it, unless a link is to be followed. -/
theorem locate_of_lookup? (found : files.tree.lookup? place = some entry) (fits : Fits place)
    {followLast : Bool} (stays : followLast = false ∨ ∀ target, entry ≠ .link target) :
    files.locate followLast place.path = .ok (.entry place entry) := by
  have proper := areNames_of_lookup? found
  rw [locate_eq found, if_neg (Nat.not_lt.2 fits.1)]
  by_cases top : place = []
  · subst top
    cases found
    rfl
  · rw [steps_path proper top]
    exact (walks_of_lookup? rfl found proper fits.2 stays).walk

theorem locate_of_not_fits (found : files.tree.lookup? place = some entry) (long : ¬ Fits place)
    (followLast : Bool) : files.locate followLast place.path = .error .nameTooLong := by
  have proper := areNames_of_lookup? found
  rw [locate_eq found]
  split
  · rfl
  · rename_i within
    have longName : ¬ FitsNames place := fun short => long ⟨Nat.not_lt.1 within, short⟩
    have below : place ≠ [] := by
      rintro rfl
      exact longName (by simp [FitsNames])
    rw [steps_path proper below]
    exact (walks_of_not_fits rfl found proper longName).walk

/-! ## What a path leads to -/

theorem target?_of_lookup? (found : files.tree.lookup? place = some entry) (fits : Fits place)
    (stays : ∀ target, entry ≠ .link target) : files.target? place.path = .ok (some entry) := by
  rw [target?, locate_of_lookup? found fits (.inr stays)]

/-- An entry whose path leads anywhere at all has a path that fits. -/
theorem fits_of_target? (found : files.tree.lookup? place = some entry) {target : Option Entry}
    (leads : files.target? place.path = .ok target) : Fits place := by
  by_contra long
  rw [target?, locate_of_not_fits found long] at leads
  simp [isAbsence] at leads

/-- Where an entry stands whose path leads anywhere at all, a link stands only if it is one. -/
theorem isLink_iff (found : files.tree.lookup? place = some entry) {target : Option Entry}
    (leads : files.target? place.path = .ok target) :
    files.isLink place.path ↔ ∃ target, entry = .link target := by
  rw [isLink, locate_of_lookup? found (fits_of_target? found leads) (.inl rfl)]
  cases entry <;> simp

/-- A path that leads to a directory is that of a directory or of a link. -/
theorem directory_or_link (found : files.tree.lookup? place = some entry)
    (leads : files.target? place.path = .ok (some .directory)) :
    entry = .directory ∨ ∃ target, entry = .link target := by
  have fits := fits_of_target? found leads
  cases entry with
  | file bytes =>
    rw [target?_of_lookup? found fits (by simp)] at leads
    cases leads
  | directory => exact .inl rfl
  | link target => exact .inr ⟨target, rfl⟩

/-! ## The order of the entries -/

section
variable {tree : FileTree} (same : tree.entries.Perm files.tree.entries)
include same

/-- The order of the entries of a tree tells nothing about where a path leads. -/
theorem locate_of_perm (followLast : Bool) (p : Text) :
    locate { files with tree } followLast p = files.locate followLast p := by
  simp only [locate, walk_of_perm same]

theorem target?_of_perm (p : Text) : target? { files with tree } p = files.target? p := by
  rw [target?, target?, locate_of_perm same]

theorem isLink_of_perm (p : Text) : isLink { files with tree } p = files.isLink p := by
  rw [isLink, isLink, locate_of_perm same]

theorem list_of_perm (p : Text) : list { files with tree } p = files.list p := by
  simp only [list, fromRoot, locate_of_perm same, names_of_perm same]
  rfl

end

end FileSystem
end ModuleAtlas
