import ModuleAtlas.FileTree.Access
import ModuleAtlas.Proofs.FileTree.Locate
import ModuleAtlas.Proofs.Path.Joined
/-!
Names in a directory. Where a path leads to a directory, the path of a name below it leads to what
stands in the directory under this name, and to a vacancy if nothing does (`locate_child`), whatever
links there are on the way. Where a path leads is no matter of what is added to a tree later
(`locate_of_grows`).
-/
namespace ModuleAtlas
open ModuleAtlas.Path

namespace FileTree

/-! ## Trees that grow -/

/-- The tree has got further entries only. -/
def Grows (tree after : FileTree) : Prop := tree.entries <+: after.entries

section
variable {tree after : FileTree} {place : Place} {entry : Entry}

theorem grows_add (tree : FileTree) (place : Place) (entry : Entry) :
    Grows tree (tree.add place entry) := by
  rw [add]
  split
  · exact List.prefix_append _ _
  · exact List.prefix_refl _

theorem lookup?_of_grows (grows : Grows tree after) (found : tree.lookup? place = some entry) :
    after.lookup? place = some entry := by
  by_cases top : place = []
  · rw [top] at found ⊢
    exact found
  · exact lookup?_of_mem (grows.subset (mem_of_lookup? top found))

/-- A place that is free after all has always been free. -/
theorem free_of_grows (grows : Grows tree after) (free : after.lookup? place = none) :
    tree.lookup? place = none := by
  by_contra taken
  obtain ⟨entry, held⟩ := Option.ne_none_iff_exists'.1 taken
  rw [lookup?_of_grows grows held] at free
  cases free

theorem isDirectoryAt_of_grows (grows : Grows tree after) (real : tree.isDirectoryAt place) :
    after.isDirectoryAt place := by
  rw [isDirectoryAt, beq_iff_eq] at real ⊢
  exact lookup?_of_grows grows real

end

/-! ## Where walks lead -/

/-- Steps lead to an entry along so many links at most. -/
inductive Leads (tree : FileTree) (followLast : Bool) : Nat → Place → List Text → Place → Entry → Prop
  | here {links : Nat} {place : Place} {entry : Entry} (found : tree.lookup? place = some entry) :
    Leads tree followLast links place [] place entry
  | dot {links : Nat} {place last : Place} {rest : List Text} {entry : Entry}
    (real : tree.isDirectoryAt place) (further : Leads tree followLast links place rest last entry) :
    Leads tree followLast links place ([.scalar '.'] :: rest) last entry
  | up {links : Nat} {place last : Place} {rest : List Text} {entry : Entry}
    (real : tree.isDirectoryAt place)
    (further : Leads tree followLast links place.dropLast rest last entry) :
    Leads tree followLast links place ((['.', '.'] : Text) :: rest) last entry
  | down {links : Nat} {place last : Place} {step : Text} {rest : List Text} {between entry : Entry}
    (down : GoesDown tree place step between) (noLink : ∀ target, between ≠ .link target)
    (further : Leads tree followLast links (place ++ [step]) rest last entry) :
    Leads tree followLast links place (step :: rest) last entry
  | along {links : Nat} {place last : Place} {step target : Text} {rest : List Text} {entry : Entry}
    (down : GoesDown tree place step (.link target)) (goes : rest ≠ [] ∨ followLast = true)
    (further : Leads tree followLast links (startOf place target) (steps target ++ rest) last entry) :
    Leads tree followLast (links + 1) place (step :: rest) last entry
  | stay {links : Nat} {place : Place} {step target : Text}
    (down : GoesDown tree place step (.link target)) (stays : followLast = false) :
    Leads tree followLast links place [step] (place ++ [step]) (.link target)

section
variable {tree after : FileTree} {followLast : Bool} {links : Nat} {place last : Place}
  {todo : List Text} {entry : Entry}

/-- What is found, once the tree has grown, where a walk has ended: the entry that it has ended at, or
one that has been put in the place of a vacancy and is no link. -/
inductive Settles (after : FileTree) (last : Place) (entry : Entry) : Destination → Prop
  | entry : Settles after last entry (.entry last entry)
  | vacancy {directory : Place} {name : Text} (same : last = directory ++ [name])
    (filled : after.lookup? last = some entry) (noLink : ∀ target, entry ≠ .link target) :
    Settles after last entry (.vacancy directory name)

theorem GoesDown.grows {step : Text} (down : GoesDown tree place step entry)
    (grows : Grows tree after) : GoesDown after place step entry :=
  ⟨isDirectoryAt_of_grows grows down.real, down.noDot, down.noUp, down.short,
    lookup?_of_grows grows down.found⟩

/-- Where a walk has ended, it leads to what is found there once the tree has grown. -/
theorem Walks.leads {destination : Destination}
    (walks : Walks tree followLast links place todo (.ok destination)) (grows : Grows tree after)
    (settles : Settles after last entry destination) :
    Leads after followLast links place todo last entry := by
  generalize whole : Except.ok destination = outcome at walks
  induction walks with
  | nowhere | barred | long | lost | spent => cases whole
  | here found =>
    cases whole
    cases settles
    exact .here (lookup?_of_grows grows found)
  | dot real _ ih => exact .dot (isDirectoryAt_of_grows grows real) (ih whole)
  | up real _ ih => exact .up (isDirectoryAt_of_grows grows real) (ih whole)
  | vacant amiss =>
    cases whole
    obtain _ | ⟨rfl, filled, noLink⟩ := settles
    have real := isDirectoryAt_of_grows grows amiss.real
    exact .down ⟨real, amiss.noDot, amiss.noUp, amiss.short, filled⟩ noLink (.here filled)
  | down down noLink _ ih => exact .down (down.grows grows) noLink (ih whole)
  | stay down stays =>
    cases whole
    cases settles
    exact .stay (down.grows grows) stays
  | along down goes _ ih => exact .along (down.grows grows) goes (ih whole)

theorem Leads.walks (leads : Leads tree followLast links place todo last entry) :
    Walks tree followLast links place todo (.ok (.entry last entry)) := by
  induction leads with
  | here found => exact .here found
  | dot real _ ih => exact .dot real ih
  | up real _ ih => exact .up real ih
  | down down noLink _ ih => exact .down down noLink ih
  | along down goes _ ih => exact .along down goes ih
  | stay down stays => exact .stay down stays

theorem leads_iff : Leads tree followLast links place todo last entry ↔
    walk tree followLast links place todo = .ok (.entry last entry) :=
  ⟨fun leads => leads.walks.walk, fun walked => (walks_iff.2 walked).leads (List.prefix_refl _) .entry⟩

/-- Where a walk ends that follows a link at its very end, one that does not ends somewhere. -/
theorem Leads.unfollowed (leads : Leads tree true links place todo last entry) :
    ∃ first between, Leads tree false links place todo first between := by
  induction leads with
  | here found => exact ⟨_, _, .here found⟩
  | dot real _ ih =>
    obtain ⟨first, between, further⟩ := ih
    exact ⟨first, between, .dot real further⟩
  | up real _ ih =>
    obtain ⟨first, between, further⟩ := ih
    exact ⟨first, between, .up real further⟩
  | down down noLink _ ih =>
    obtain ⟨first, between, further⟩ := ih
    exact ⟨first, between, .down down noLink further⟩
  | @along _ _ _ _ _ rest _ down _ _ ih =>
    by_cases ends : rest = []
    · subst ends
      exact ⟨_, _, .stay down rfl⟩
    · obtain ⟨first, between, further⟩ := ih
      exact ⟨first, between, .along down (.inl ends) further⟩
  | stay _ stays => cases stays

theorem Leads.lookup? (leads : Leads tree followLast links place todo last entry) :
    tree.lookup? last = some entry := by
  induction leads with
  | here found => exact found
  | dot _ _ ih => exact ih
  | up _ _ ih => exact ih
  | down _ _ _ ih => exact ih
  | along _ _ _ ih => exact ih
  | stay down _ => exact down.found

/-- Where steps have led they still lead. -/
theorem Leads.grows (leads : Leads tree followLast links place todo last entry)
    (grows : Grows tree after) : Leads after followLast links place todo last entry := by
  induction leads with
  | here found => exact .here (lookup?_of_grows grows found)
  | dot real _ ih => exact .dot (isDirectoryAt_of_grows grows real) ih
  | up real _ ih => exact .up (isDirectoryAt_of_grows grows real) ih
  | down down noLink _ ih => exact .down (down.grows grows) noLink ih
  | along down goes _ ih => exact .along (down.grows grows) goes ih
  | stay down stays => exact .stay (down.grows grows) stays

/-! ## A further entry -/

/-- A directory admits an entry under every proper name that is free. -/
theorem admits_of_free {name : Text} (real : tree.isDirectoryAt place) (named : isEntryName name)
    (free : tree.lookup? (place ++ [name]) = none) : tree.Admits (place ++ [name]) := by
  rw [isDirectoryAt, beq_iff_eq] at real
  have above : place = [] ∨ (place, Entry.directory) ∈ tree.entries := by
    by_cases top : place = []
    · exact .inl top
    · exact .inr (mem_of_lookup? top real)
  refine ⟨?_, by simp, ?_, by rwa [List.dropLast_concat]⟩
  · intro held
    obtain ⟨⟨place, other⟩, inside, rfl⟩ := List.mem_map.1 held
    rw [lookup?_of_mem inside] at free
    cases free
  · intro part inside
    rcases List.mem_append.1 inside with older | new
    · rcases above with top | held
      · rw [top] at older
        cases older
      · exact (tree.named _ held).2 part older
    · rwa [List.mem_singleton.1 new]

theorem entries_add (admits : tree.Admits place) (entry : Entry) :
    (tree.add place entry).entries = tree.entries ++ [(place, entry)] := by
  rw [add, dif_pos admits]
  rfl

/-! ## A further name -/

/-- What stands in a directory under a name. -/
def inside (tree : FileTree) (directory : Place) (name : Text) : Except FileCause Destination :=
  if nameLimit < Text.utf8Length name then .error .nameTooLong
  else match tree.lookup? (directory ++ [name]) with
    | some entry => .ok (.entry (directory ++ [name]) entry)
    | none => .ok (.vacancy directory name)

theorem walks_name {name : Text} (real : tree.isDirectoryAt place) (noDot : name ≠ [.scalar '.'])
    (noUp : name ≠ (['.', '.'] : Text)) :
    Walks tree false links place [name] (inside tree place name) := by
  rw [inside]
  split
  · rename_i long
    exact .long real noDot noUp long
  · rename_i short
    split
    · rename_i entry found
      have down : GoesDown tree place name entry := ⟨real, noDot, noUp, short, found⟩
      by_cases link : ∃ target, entry = .link target
      · obtain ⟨target, rfl⟩ := link
        exact .stay down rfl
      · exact .down down (not_exists.1 link) (.here found)
    · rename_i free
      exact .vacant ⟨real, noDot, noUp, short, free⟩

/-- Where steps lead to a directory, a further name leads to what stands there under it. -/
theorem Leads.walks_name (leads : Leads tree true links place todo last .directory) {name : Text}
    (noDot : name ≠ [.scalar '.']) (noUp : name ≠ (['.', '.'] : Text)) :
    Walks tree false links place (todo ++ [name]) (inside tree last name) := by
  generalize whole : Entry.directory = entry at leads
  induction leads with
  | here found =>
    subst whole
    exact FileTree.walks_name (by rw [isDirectoryAt, found]; rfl) noDot noUp
  | dot real _ ih => exact .dot real (ih whole)
  | up real _ ih => exact .up real (ih whole)
  | down down noLink _ ih => exact .down down noLink (ih whole)
  | along down _ _ ih =>
    have further := ih whole
    rw [List.append_assoc] at further
    exact .along down (.inl (by simp)) further
  | stay => cases whole

end

end FileTree

namespace FileSystem
open FileTree
variable {files : FileSystem} {followLast : Bool} {p : Text} {last : Place} {entry : Entry}

/-- A path leads to an entry if it is no longer than a path can be and its steps do. -/
theorem locate_eq_entry_iff : files.locate followLast p = .ok (.entry last entry) ↔
    p.IsLegal ∧ ¬ pathLimit < Text.utf8Length p ∧
      Leads files.tree followLast linkLimit (startOf files.current p) (steps p) last entry := by
  constructor
  · intro located
    have legal := isLegal_of_locate located
    rw [locate_of_isLegal legal] at located
    split at located
    · cases located
    rename_i short
    exact ⟨legal, short, leads_iff.2 located⟩
  · rintro ⟨legal, short, leads⟩
    rw [locate_of_isLegal legal, if_neg short]
    exact leads_iff.1 leads

/-- A path leads only to what is there. -/
theorem lookup?_of_locate (located : files.locate followLast p = .ok (.entry last entry)) :
    files.tree.lookup? last = some entry :=
  (locate_eq_entry_iff.1 located).2.2.lookup?

/-- Where a path has led it still leads. -/
theorem locate_of_grows {tree : FileTree} (grows : files.tree.Grows tree)
    (leads : files.locate followLast p = .ok (.entry last entry)) :
    locate { files with tree } followLast p = .ok (.entry last entry) := by
  obtain ⟨clear, short, leads⟩ := locate_eq_entry_iff.1 leads
  exact locate_eq_entry_iff.2 ⟨clear, short, leads.grows grows⟩

/-! ## Paths of names in a directory -/

theorem steps_ofSegments (p : Text) {segments : List Text} (proper : AreSegments segments) :
    steps (ofSegments (root p) segments) = if segments = [] then [[.scalar '.']] else segments := by
  by_cases none : segments = []
  · rw [if_pos none, none]
    rcases root_cases p with same | same | same <;> rw [same] <;> rfl
  · have text := ofNames_ne_nil proper none
    have whole : ofSegments (root p) segments = root p ++ ofNames segments := by
      rw [ofNames] at text ⊢
      simp [ofSegments, text]
    have pieces : (Text.splitOn '/' (ofNames segments)).filter (!·.isEmpty) = segments := by
      rw [ofNames, Text.splitOn_joinWith none fun segment inside => (proper segment inside).2.1,
        List.filter_eq_self]
      intro segment inside
      simpa using (proper segment inside).1
    have cut : (Text.splitOn '/' (root p ++ ofNames segments)).filter (!·.isEmpty) = segments := by
      rcases root_cases p with same | same | same <;> rw [same]
      · exact pieces
      · simpa [Text.splitOn] using pieces
      · simpa [Text.splitOn] using pieces
    have ending : (root p ++ ofNames segments).getLast? ≠ some (.scalar '/') := by
      rw [List.getLast?_append_of_ne_nil _ text, List.getLast?_eq_some_getLast text]
      exact fun slash => getLast_ofNames proper text (Option.some.inj slash)
    rw [if_neg none, whole, steps, cut, if_neg (by simpa using ending), List.append_nil]

/-- The characters of a path are those of its segments, apart from slashes and the dot that stands
for no segments. -/
theorem isAbsolute_ofSegments_root (p : Text) {segments : List Text} (proper : AreSegments segments) :
    isAbsolute (ofSegments (root p) segments) = isAbsolute p := by
  rw [Bool.eq_iff_iff, ← not_iff_not, ← root_eq_nil_iff, ← root_eq_nil_iff,
    (root_segments_ofSegments p proper).1]

section
variable {name : Text} (named : isEntryName name)
include named

theorem isSegment_of_isEntryName : IsSegment name :=
  have ⟨nonempty, noSlash, noDot, _⟩ := isName_of_isEntryName named
  ⟨nonempty, noSlash, noDot⟩

theorem areSegments_below (p : Text) : AreSegments (segments p ++ [name]) :=
  areSegments_append.2
    ⟨areSegments_segments p, by simpa [AreSegments] using isSegment_of_isEntryName named⟩

/-- The path of a name below a path has one more segment. -/
theorem child_clean (p : Text) : child (clean p) name = ofSegments (root p) (segments p ++ [name]) := by
  have proper := isSegment_of_isEntryName named
  have relative : ¬ isAbsolute name := by
    intro absolute
    cases name with
    | nil => exact proper.1 rfl
    | cons c rest =>
      have slash : c = '/' := by simpa [isAbsolute] using absolute
      exact proper.2.1 (by simp [slash])
  have single : segments name = [name] := by
    have one : AreSegments [name] := by simpa [AreSegments] using proper
    exact segments_ofNames one
  obtain ⟨roots, parts⟩ := root_segments_ofSegments p (areSegments_segments p)
  rw [child, clean, root_join_relative relative, segments_join relative, single]
  rw [clean, roots, parts]

/-- Different names have different paths below one path. -/
theorem child_injective {other : Text} (alsoNamed : isEntryName other)
    (same : child (clean p) name = child (clean p) other) : name = other := by
  have parts := congrArg segments same
  rw [child_clean named, child_clean alsoNamed,
    (root_segments_ofSegments p (areSegments_below named p)).2,
    (root_segments_ofSegments p (areSegments_below alsoNamed p)).2] at parts
  simpa using List.append_cancel_left parts

theorem isLegal_child (legal : p.IsLegal) : (child (clean p) name).IsLegal := by
  rw [child_clean named, isLegal_ofSegments_iff]
  exact List.forall_mem_append.2 ⟨isLegal_segments_iff.2 legal,
    List.forall_mem_singleton.2 (isEntryName_iff.1 named).2.2.1⟩

theorem startOf_child (current : Place) :
    startOf current (child (clean p) name) = startOf current (clean p) := by
  rw [startOf, startOf, child_clean named, isAbsolute_ofSegments_root p (areSegments_below named p),
    clean, isAbsolute_ofSegments_root p (areSegments_segments p)]

/-- Where a path leads to a directory, a name below it leads to what stands there under the name. -/
theorem locate_child (leads : files.locate true (clean p) = .ok (.entry last .directory)) :
    files.locate false (child (clean p) name) =
      if pathLimit < Text.utf8Length (child (clean p) name) then .error .nameTooLong
      else inside files.tree last name := by
  obtain ⟨clear, -, leads⟩ := locate_eq_entry_iff.1 leads
  obtain ⟨-, -, -, noDot, noUp⟩ := isEntryName_iff.1 named
  have walked : files.tree.walk false linkLimit (startOf files.current (clean p))
      (steps (child (clean p) name)) = inside files.tree last name := by
    rw [child_clean named, steps_ofSegments p (areSegments_below named p), if_neg (by simp)]
    -- The path of no segments is a single dot, which is a step of its own and leads nowhere else.
    by_cases top : segments p = []
    · have here : steps (clean p) = [[.scalar '.']] := by
        rw [clean, steps_ofSegments p (areSegments_segments p), if_pos top]
      rw [here] at leads
      rw [top]
      cases leads with
      | dot _ leads => exact (leads.walks_name noDot noUp).walk
      | down down => exact absurd rfl down.noDot
      | along down => exact absurd rfl down.noDot
    · have here : steps (clean p) = segments p := by
        rw [clean, steps_ofSegments p (areSegments_segments p), if_neg top]
      rw [here] at leads
      exact (leads.walks_name noDot noUp).walk
  rw [locate_of_isLegal (isLegal_child named (isLegal_clean_iff.1 clear)), startOf_child named, walked]

/-! ## New entries in a directory -/

/-- The name, or the path of the name below another one, is too long. -/
def IsLong (p name : Text) : Prop :=
  pathLimit < Text.utf8Length (child (clean p) name) ∨ nameLimit < Text.utf8Length name

section
variable (leads : files.locate true (clean p) = .ok (.entry last .directory))
include leads

/-- A directory admits an entry under every name that is free. -/
theorem entries_add (free : files.tree.lookup? (last ++ [name]) = none) (entry : Entry) :
    (files.add last name entry).tree.entries = files.tree.entries ++ [(last ++ [name], entry)] := by
  have real := lookup?_of_locate leads
  exact FileTree.entries_add (admits_of_free (by rw [isDirectoryAt, real]; rfl) named free) entry

variable (short : ¬ IsLong p name)
include short

theorem create_of_taken (taken : (files.tree.lookup? (last ++ [name])).isSome) (entry : Entry) :
    files.create (child (clean p) name) entry =
      .error ⟨.occupied, child (clean p) name⟩ := by
  obtain ⟨other, held⟩ := Option.isSome_iff_exists.1 taken
  rw [create, locate_child named leads, if_neg (not_or.1 short).1, inside,
    if_neg (not_or.1 short).2, held]

theorem create_of_free (free : files.tree.lookup? (last ++ [name]) = none) (entry : Entry) :
    files.create (child (clean p) name) entry = .ok (files.add last name entry) := by
  rw [create, locate_child named leads, if_neg (not_or.1 short).1, inside,
    if_neg (not_or.1 short).2, free]

/-- The path of a name that was free leads to the entry that has been added under it. -/
theorem locate_add (free : files.tree.lookup? (last ++ [name]) = none) (entry : Entry) :
    (files.add last name entry).locate false (child (clean p) name) =
      .ok (.entry (last ++ [name]) entry) := by
  have entries := entries_add named leads free entry
  have grows : files.tree.Grows (files.add last name entry).tree := ⟨_, entries.symm⟩
  have held : (files.add last name entry).tree.lookup? (last ++ [name]) = some entry :=
    lookup?_of_mem (by simp [entries])
  have still : (files.add last name entry).locate true (clean p) = .ok (.entry last .directory) :=
    locate_of_grows grows leads
  rw [locate_child named still, if_neg (not_or.1 short).1, inside, if_neg (not_or.1 short).2, held]

end
end

/-- Making a directory that is there changes nothing. -/
theorem makeDirectories_of_leads (leads : files.locate true p = .ok (.entry last .directory)) :
    files.makeDirectories p = (files, .ok ()) := by
  obtain ⟨clear, short, walks⟩ := locate_eq_entry_iff.1 leads
  obtain ⟨first, between, unfollowed⟩ := walks.unfollowed
  have taken := locate_eq_entry_iff.2 ⟨clear, short, unfollowed⟩
  have there : files.isDirectory p = .ok true := by
    rw [isDirectory, target?, leads]
    rfl
  have made : files.makeDirectory p = .ok files := by
    rw [makeDirectory, create, taken]
    simp only [settle, there]
    rfl
  rw [makeDirectories]
  cases (segments p).length with
  | zero => rw [makeAlong, made]
  | succ levels => rw [makeAlong, made]

end FileSystem
end ModuleAtlas
