import ModuleAtlas.Proofs.Discovery.Walk
import ModuleAtlas.Proofs.FileTree.Locate
/-!
Which files a walk finds, said without a walk. A source file stands below the root with directories
only above it that are no links and not pruned (`IsSource`). A walk stops where a directory of this
kind cannot be listed, or where it cannot be told what an entry of one leads to (`Stops`). It finds
the source files that come before all these places in the order of their names, in this order, and
tells about the first of the places (`sourceFiles_answers`).
-/
namespace ModuleAtlas

/-! ## The order of places -/

namespace Place

theorem lt_irrefl (place : Place) : ¬ place < place := List.lt_irrefl place

theorem lt_asymm {left right : Place} (before : left < right) : ¬ right < left :=
  List.lt_asymm before

/-- A place comes before what stands below it. -/
theorem lt_of_below (place : Place) {below : List Text} (some : below ≠ []) :
    place < place ++ below := by
  induction place with
  | nil =>
    cases below with
    | nil => exact absurd rfl some
    | cons name below => exact List.nil_lt_cons name below
  | cons name place ih => exact List.cons_lt_cons_iff.2 (.inr ⟨rfl, ih⟩)

/-- What stands at or below one of two entries of a directory is in order as their names are. -/
theorem lt_of_names {directory left right : Place} {first second : Text} (before : first < second)
    (inLeft : directory ++ [first] <+: left) (inRight : directory ++ [second] <+: right) :
    left < right := by
  obtain ⟨x, rfl⟩ := inLeft
  obtain ⟨y, rfl⟩ := inRight
  simp only [List.append_assoc, List.singleton_append]
  exact List.append_left_lt (List.cons_lt_cons_iff.2 (.inl before))

end Place

theorem Text.lt_of_le {a b : Text} (before : Text.le a b) (apart : a ≠ b) : a < b :=
  (List.le_iff_lt_or_eq.1 (Text.le_iff.1 before)).resolve_right apart

namespace Discovery

/-! ## What a walk is to find -/

section
variable (files : FileSystem) (scope : Scope)

/-- Below a directory, a row of directories leads on that are no links and not pruned. -/
def IsOpen : (directory : Place) → (folders : List Text) → Prop
  | _, [] => True
  | directory, name :: folders =>
    files.tree.isDirectoryAt (directory ++ [name]) ∧ isPruned scope.excluded name = false ∧
      IsOpen (directory ++ [name]) folders

/-- A source file stands at the place: an entry that leads to a file, with an eligible name, in a
directory that is open from the root. -/
def IsSource (root place : Place) : Prop :=
  ∃ folders name, place = root ++ folders ++ [name] ∧ IsOpen files scope root folders ∧
    (files.tree.lookup? place).isSome ∧ (∃ bytes, files.target? place.path = .ok (some (.file bytes))) ∧
    isEligible scope.extensions name

/-- A walk from the root stops at the place, unless it has stopped before: at a directory that is
open and cannot be listed, or at an entry of one of which it cannot be told what it leads to. -/
inductive Stops (root : Place) : Place → WalkFault → Prop
  | listing {folders : List Text} {fault : FileFault} (leads : IsOpen files scope root folders)
    (checked : folders ≠ [] → ∃ entry, files.target? (root ++ folders).path = .ok entry)
    (refused : files.list (root ++ folders).path = .error fault) :
    Stops root (root ++ folders) (.listing (root ++ folders).path fault)
  | check {folders : List Text} {name : Text} {fault : FileFault}
    (leads : IsOpen files scope root folders)
    (held : (files.tree.lookup? (root ++ folders ++ [name])).isSome)
    (refused : files.target? (root ++ folders ++ [name]).path = .error fault) :
    Stops root (root ++ folders ++ [name]) (.check fault)

end

/-- What has been found answers which places are sources and where a walk stops: the places found
are in order, they are the sources before all stops, and the fault is that of the first stop. -/
structure Found.Answers (found : Found) (source : Place → Prop) (stop : Place → WalkFault → Prop) :
    Prop where
  increasing : found.files.Pairwise (· < ·)
  exactly : ∀ place, place ∈ found.files ↔
    source place ∧ ∀ last fault, stop last fault → place < last
  ends : ∀ fault, found.fault = some fault ↔
    ∃ last, stop last fault ∧ ∀ other others, stop other others → last = other ∨ last < other
  whole : found.fault = none ↔ ∀ last fault, ¬ stop last fault

namespace Found.Answers
variable {first next found : Found} {source source' : Place → Prop}
  {stop stop' : Place → WalkFault → Prop}

theorem congr (answers : found.Answers source stop) (sources : ∀ place, source' place ↔ source place)
    (stops : ∀ place fault, stop' place fault ↔ stop place fault) : found.Answers source' stop' := by
  have same : source' = source := funext fun place => propext (sources place)
  have same' : stop' = stop := funext fun place => funext fun fault => propext (stops place fault)
  rwa [same, same']

/-- There is nothing to find where there are no sources and no stops. -/
theorem nothing : ({} : Found).Answers (fun _ => False) fun _ _ => False := by
  refine ⟨List.Pairwise.nil, ?_, ?_, ?_⟩ <;> simp

/-- Sources and stops behind a stop change nothing in what is found. -/
theorem behind (answers : found.Answers source stop) {last : Place} {cause : WalkFault}
    (stopped : stop last cause) (sources : ∀ place, source' place → last < place)
    (stops : ∀ place fault, stop' place fault → last < place) :
    found.Answers (fun place => source place ∨ source' place)
      fun place fault => stop place fault ∨ stop' place fault := by
  refine ⟨answers.increasing, ?_, ?_, ?_⟩
  · intro place
    rw [answers.exactly]
    constructor
    · rintro ⟨here, before⟩
      refine ⟨.inl here, fun other fault either => ?_⟩
      rcases either with mine | later
      · exact before other fault mine
      · exact List.lt_trans (before last cause stopped) (stops other fault later)
    · rintro ⟨here | later, before⟩
      · exact ⟨here, fun other fault mine => before other fault (.inl mine)⟩
      · exact absurd (before last cause (.inl stopped)) (Place.lt_asymm (sources place later))
  · intro fault
    rw [answers.ends]
    constructor
    · rintro ⟨first, mine, least⟩
      refine ⟨first, .inl mine, fun other others either => ?_⟩
      rcases either with mine | later
      · exact least other others mine
      · have after := stops other others later
        rcases least last cause stopped with same | before
        · exact .inr (same ▸ after)
        · exact .inr (List.lt_trans before after)
    · rintro ⟨first, mine | later, least⟩
      · exact ⟨first, mine, fun other others mine => least other others (.inl mine)⟩
      · have after := stops first fault later
        rcases least last cause (.inl stopped) with same | before
        · exact absurd (same ▸ after) (Place.lt_irrefl _)
        · exact absurd before (Place.lt_asymm after)
  · rw [answers.whole]
    constructor
    · exact fun free => absurd stopped (free last cause)
    · exact fun free => absurd (.inl stopped) (free last cause)

/-- Where the one comes to no stop, everything is found that it finds and that the other finds. -/
theorem append (one : first.Answers source stop) (whole : first.fault = none)
    (other : next.Answers source' stop')
    (apart : ∀ left right, source left → (source' right ∨ ∃ fault, stop' right fault) → left < right) :
    (⟨first.files ++ next.files, next.fault⟩ : Found).Answers
      (fun place => source place ∨ source' place)
      fun place fault => stop place fault ∨ stop' place fault := by
  have free := one.whole.1 whole
  have mine : ∀ place, place ∈ first.files ↔ source place := by
    intro place
    rw [one.exactly, and_iff_left fun last fault stopped => absurd stopped (free last fault)]
  have either : ∀ last fault, stop last fault ∨ stop' last fault ↔ stop' last fault := fun last fault =>
    or_iff_right (free last fault)
  simp only [either]
  refine ⟨?_, ?_, other.ends, other.whole⟩
  · rw [List.pairwise_append]
    refine ⟨one.increasing, other.increasing, fun left inLeft right inRight => ?_⟩
    exact apart left right ((mine left).1 inLeft) (.inl ((other.exactly right).1 inRight).1)
  · intro place
    rw [List.mem_append, mine, other.exactly]
    constructor
    · rintro (here | ⟨later, before⟩)
      · exact ⟨.inl here, fun last fault stopped => apart place last here (.inr ⟨fault, stopped⟩)⟩
      · exact ⟨.inr later, before⟩
    · rintro ⟨here | later, before⟩
      · exact .inl here
      · exact .inr ⟨later, before⟩

/-- Finding one thing after the other answers for both if the one comes before the other. -/
theorem andThen (one : first.Answers source stop) (other : next.Answers source' stop')
    (apart : ∀ left right, (source left ∨ ∃ fault, stop left fault) →
      (source' right ∨ ∃ fault, stop' right fault) → left < right) :
    (first.andThen next).Answers (fun place => source place ∨ source' place)
      fun place fault => stop place fault ∨ stop' place fault := by
  rw [Found.andThen]
  cases fault : first.fault with
  | some cause =>
    obtain ⟨last, stopped, -⟩ := (one.ends cause).1 fault
    have before := apart last
    exact one.behind stopped (fun place later => before place (.inr ⟨cause, stopped⟩) (.inl later))
      fun place fault later => before place (.inr ⟨cause, stopped⟩) (.inr ⟨fault, later⟩)
  | none => exact one.append fault other fun left right here => apart left right (.inl here)

/-- What the entries of a directory contribute, one after the other, answers for all of them. -/
theorem foldr (directory : Place) {names : List Text} (sorted : names.Pairwise (· < ·))
    {contribution : Text → Found} {sources : Text → Place → Prop}
    {stops : Text → Place → WalkFault → Prop}
    (each : ∀ name ∈ names, (contribution name).Answers (sources name) (stops name))
    (placed : ∀ name place, (sources name place ∨ ∃ fault, stops name place fault) →
      directory ++ [name] <+: place) :
    ((names.map contribution).foldr Found.andThen {}).Answers
      (fun place => ∃ name ∈ names, sources name place)
      fun place fault => ∃ name ∈ names, stops name place fault := by
  induction names with
  | nil => exact nothing.congr (by simp) (by simp)
  | cons name names ih =>
    obtain ⟨before, sorted⟩ := List.pairwise_cons.1 sorted
    obtain ⟨here, later⟩ := List.forall_mem_cons.1 each
    rw [List.map_cons, List.foldr_cons]
    refine (here.andThen (ih sorted later) ?_).congr (by simp) (by simp)
    intro left right inLeft inRight
    have second : ∃ other ∈ names, directory ++ [other] <+: right := by
      rcases inRight with ⟨other, inside, source⟩ | ⟨fault, other, inside, stop⟩
      · exact ⟨other, inside, placed other right (.inl source)⟩
      · exact ⟨other, inside, placed other right (.inr ⟨fault, stop⟩)⟩
    obtain ⟨other, inside, below⟩ := second
    exact Place.lt_of_names (before other inside) (placed name left inLeft) below

/-- One source and no stop. -/
theorem one (place : Place) :
    (⟨[place], none⟩ : Found).Answers (fun other => other = place) fun _ _ => False := by
  refine ⟨List.pairwise_singleton _ _, ?_, ?_, ?_⟩ <;> simp

/-- A stop before everything else. -/
theorem stopped {place : Place} {cause : WalkFault} (here : stop place cause)
    (sources : ∀ other, source other → ¬ other < place)
    (stops : ∀ other fault, stop other fault → other = place ∧ fault = cause ∨ place < other) :
    (⟨[], some cause⟩ : Found).Answers source stop := by
  refine ⟨List.Pairwise.nil, ?_, ?_, ?_⟩
  · intro other
    refine ⟨fun inside => absurd inside List.not_mem_nil, fun ⟨found, before⟩ => ?_⟩
    exact absurd (before place cause here) (sources other found)
  · intro fault
    constructor
    · intro same
      cases same
      refine ⟨place, here, fun other others stop => ?_⟩
      exact (stops other others stop).imp (fun same => same.1.symm) id
    · rintro ⟨last, stop, least⟩
      rcases stops last fault stop with ⟨rfl, rfl⟩ | behind
      · rfl
      · rcases least place cause here with rfl | before
        · exact absurd behind (Place.lt_irrefl _)
        · exact absurd before (Place.lt_asymm behind)
  · constructor
    · intro none
      cases none
    · intro none
      exact absurd here (none place cause)

end Found.Answers

/-! ## The entries of a directory -/

section
variable {files : FileSystem} {scope : Scope} {directory place : Place} {name : Text}

theorem below_of_isSource (source : IsSource files scope directory place) :
    ∃ below, below ≠ [] ∧ place = directory ++ below := by
  obtain ⟨folders, name, rfl, -⟩ := source
  exact ⟨folders ++ [name], by simp, by simp⟩

theorem below_of_stops {fault : WalkFault} (stop : Stops files scope directory place fault) :
    directory <+: place := by
  cases stop with
  | listing => exact List.prefix_append _ _
  | check => exact ⟨_, (List.append_assoc ..).symm⟩

/-- A source at or below an entry is this entry, or a source below it if it is open. -/
theorem isSource_under_iff :
    IsSource files scope directory place ∧ directory ++ [name] <+: place ↔
      (place = directory ++ [name] ∧ (files.tree.lookup? place).isSome ∧
        (∃ bytes, files.target? place.path = .ok (some (.file bytes))) ∧
        isEligible scope.extensions name) ∨
      files.tree.isDirectoryAt (directory ++ [name]) ∧ isPruned scope.excluded name = false ∧
        IsSource files scope (directory ++ [name]) place := by
  constructor
  · rintro ⟨⟨folders, last, rfl, opens, held, leads, eligible⟩, under⟩
    rw [List.append_assoc, List.prefix_append_right_inj] at under
    cases folders with
    | nil =>
      have same : name = last := by simpa using under
      subst same
      exact .inl ⟨by simp, held, leads, eligible⟩
    | cons first folders =>
      have same : name = first := by simpa using under
      subst same
      obtain ⟨here, kept, further⟩ := opens
      exact .inr ⟨here, kept, folders, last, by simp, further, held, leads, eligible⟩
  · rintro (⟨rfl, held, leads, eligible⟩ |
    ⟨here, kept, folders, last, rfl, further, held, leads, eligible⟩)
    · exact ⟨⟨[], name, by simp, trivial, held, leads, eligible⟩, List.prefix_refl _⟩
    · refine ⟨⟨name :: folders, last, by simp, ⟨here, kept, further⟩, held, leads, eligible⟩, ?_⟩
      rw [List.append_assoc]
      exact List.prefix_append _ _

/-- A stop at or below an entry is that its check fails, or a stop below it if it is open. -/
theorem stops_under_iff {fault : WalkFault} :
    Stops files scope directory place fault ∧ directory ++ [name] <+: place ↔
      (place = directory ++ [name] ∧ (files.tree.lookup? place).isSome ∧
        ∃ cause, files.target? place.path = .error cause ∧ fault = .check cause) ∨
      files.tree.isDirectoryAt (directory ++ [name]) ∧ isPruned scope.excluded name = false ∧
        Stops files scope (directory ++ [name]) place fault ∧
        (place = directory ++ [name] → ∃ entry, files.target? place.path = .ok entry) := by
  have further : ∀ folders : List Text, directory ++ name :: folders = directory ++ [name] ++ folders :=
    fun folders => by simp
  constructor
  · rintro ⟨stop, under⟩
    cases stop with
    | @listing folders fault opens checked refused =>
      rw [List.prefix_append_right_inj] at under
      cases folders with
      | nil => simp at under
      | cons first folders =>
        have same : name = first := by simpa using under
        subst same
        obtain ⟨here, kept, opens⟩ := opens
        have leads := checked (by simp)
        rw [further] at refused leads ⊢
        exact .inr ⟨here, kept, .listing opens (fun _ => leads) refused, fun _ => leads⟩
    | @check folders last fault opens held refused =>
      rw [List.append_assoc, List.prefix_append_right_inj] at under
      cases folders with
      | nil =>
        have same : name = last := by simpa using under
        subst same
        exact .inl ⟨by simp, held, fault, refused, rfl⟩
      | cons first folders =>
        have same : name = first := by simpa using under
        subst same
        obtain ⟨here, kept, opens⟩ := opens
        rw [further] at held refused ⊢
        refine .inr ⟨here, kept, .check opens held refused, fun same => absurd same ?_⟩
        simp
  · rintro (⟨rfl, held, cause, refused, rfl⟩ | ⟨here, kept, stop, checked⟩)
    · have stop : Stops files scope directory (directory ++ [] ++ [name]) (.check cause) :=
        .check trivial (by simpa using held) (by simpa using refused)
      exact ⟨by simpa using stop, List.prefix_refl _⟩
    · refine ⟨?_, below_of_stops stop⟩
      cases stop with
      | @listing folders fault opens deeper refused =>
        have leads : ∃ entry, files.target? (directory ++ [name] ++ folders).path = .ok entry := by
          by_cases top : folders = []
          · exact checked (by simp [top])
          · exact deeper top
        rw [← further] at leads refused ⊢
        exact .listing ⟨here, kept, opens⟩ (fun _ => leads) refused
      | @check folders last fault opens held refused =>
        rw [← further] at held refused ⊢
        exact .check ⟨here, kept, opens⟩ held refused

/-- Where the check of an entry succeeds, a walk can only stop further down. -/
theorem stops_under_iff_of_leads {target : Option Entry} {fault : WalkFault}
    (leads : files.target? (Place.path (directory ++ [name])) = .ok target) :
    Stops files scope directory place fault ∧ directory ++ [name] <+: place ↔
      files.tree.isDirectoryAt (directory ++ [name]) ∧ isPruned scope.excluded name = false ∧
        Stops files scope (directory ++ [name]) place fault := by
  rw [stops_under_iff]
  constructor
  · rintro (⟨rfl, -, cause, refused, -⟩ | ⟨here, kept, stop, -⟩)
    · rw [leads] at refused
      cases refused
    · exact ⟨here, kept, stop⟩
  · rintro ⟨here, kept, stop⟩
    exact .inr ⟨here, kept, stop, fun same => same ▸ ⟨target, leads⟩⟩

/-- An entry whose check succeeds is a source if it leads to a file, or sources stand further down. -/
theorem isSource_under_iff_of_leads {target : Option Entry}
    (held : (files.tree.lookup? (directory ++ [name])).isSome)
    (leads : files.target? (Place.path (directory ++ [name])) = .ok target) :
    IsSource files scope directory place ∧ directory ++ [name] <+: place ↔
      (place = directory ++ [name] ∧ (∃ bytes, target = some (.file bytes)) ∧
        isEligible scope.extensions name) ∨
      files.tree.isDirectoryAt (directory ++ [name]) ∧ isPruned scope.excluded name = false ∧
        IsSource files scope (directory ++ [name]) place := by
  rw [isSource_under_iff]
  refine or_congr_left ⟨?_, ?_⟩
  · rintro ⟨rfl, -, ⟨bytes, found⟩, eligible⟩
    rw [leads] at found
    cases found
    exact ⟨rfl, ⟨bytes, rfl⟩, eligible⟩
  · rintro ⟨rfl, ⟨bytes, rfl⟩, eligible⟩
    exact ⟨rfl, held, ⟨bytes, leads⟩, eligible⟩

section
variable {descend : Place → Found}

theorem answers_of_refused {cause : FileFault}
    (held : (files.tree.lookup? (directory ++ [name])).isSome)
    (refused : files.target? (Place.path (directory ++ [name])) = .error cause) :
    (entryFiles descend files scope directory name).Answers
      (fun place => IsSource files scope directory place ∧ directory ++ [name] <+: place)
      fun place fault => Stops files scope directory place fault ∧ directory ++ [name] <+: place := by
  have only : entryFiles descend files scope directory name = ⟨[], some (.check cause)⟩ := by
    simp [entryFiles, FileSystem.isDirectory, refused, Except.map]
  have behind : ∀ place, directory ++ [name] <+: place → place = directory ++ [name] ∨
      directory ++ [name] < place := by
    rintro place ⟨below, rfl⟩
    by_cases top : below = []
    · exact .inl (by simp [top])
    · exact .inr (Place.lt_of_below _ top)
  rw [only]
  refine Found.Answers.stopped (stops_under_iff.2 (.inl ⟨rfl, held, cause, refused, rfl⟩)) ?_ ?_
  · rintro place ⟨-, under⟩
    rcases behind place under with rfl | after
    · exact Place.lt_irrefl _
    · exact Place.lt_asymm after
  · intro place fault stop
    rcases behind place stop.2 with rfl | after
    · rcases stops_under_iff.1 stop with ⟨-, -, other, again, rfl⟩ | ⟨-, -, -, checked⟩
      · rw [refused] at again
        cases again
        exact .inl ⟨rfl, rfl⟩
      · obtain ⟨target, found⟩ := checked rfl
        rw [refused] at found
        cases found
    · exact .inr after

theorem answers_of_directory {entry : Entry}
    (held : files.tree.lookup? (directory ++ [name]) = some entry)
    (leads : files.target? (Place.path (directory ++ [name])) = .ok (some .directory))
    (descends : entry = .directory → (descend (directory ++ [name])).Answers
      (IsSource files scope (directory ++ [name])) (Stops files scope (directory ++ [name]))) :
    (entryFiles descend files scope directory name).Answers
      (fun place => IsSource files scope directory place ∧ directory ++ [name] <+: place)
      fun place fault => Stops files scope directory place fault ∧ directory ++ [name] <+: place := by
  have link := FileSystem.isLink_iff held leads
  by_cases opens : files.tree.isDirectoryAt (directory ++ [name]) ∧
      isPruned scope.excluded name = false
  · obtain ⟨here, kept⟩ := opens
    have same : entry = .directory := by simpa [FileTree.isDirectoryAt, held] using here
    have noLink : files.isLink (Place.path (directory ++ [name])) = false := by
      simpa [same] using link
    have through : entryFiles descend files scope directory name = descend (directory ++ [name]) := by
      simp [entryFiles, FileSystem.isDirectory, leads, Except.map, noLink, kept]
    rw [through]
    refine (descends same).congr ?_ ?_
    · intro place
      rw [isSource_under_iff_of_leads (by simp [held]) leads]
      simp [here, kept]
    · intro place fault
      rw [stops_under_iff_of_leads leads]
      simp [here, kept]
  · have skips : files.isLink (Place.path (directory ++ [name])) = true ∨
        isPruned scope.excluded name = true := by
      rw [link]
      rcases FileSystem.directory_or_link held leads with rfl | leadsOn
      · exact .inr (by simpa [FileTree.isDirectoryAt, held] using opens)
      · exact .inl leadsOn
    have closed : entryFiles descend files scope directory name = {} := by
      simp [entryFiles, FileSystem.isDirectory, leads, Except.map, skips]
    rw [closed]
    refine Found.Answers.nothing.congr ?_ ?_
    · intro place
      rw [isSource_under_iff_of_leads (by simp [held]) leads, iff_false, not_or]
      exact ⟨by simp, fun through => opens ⟨through.1, through.2.1⟩⟩
    · intro place fault
      rw [stops_under_iff_of_leads leads, iff_false]
      exact fun through => opens ⟨through.1, through.2.1⟩

theorem answers_of_other {entry : Entry} {target : Option Entry}
    (held : files.tree.lookup? (directory ++ [name]) = some entry)
    (leads : files.target? (Place.path (directory ++ [name])) = .ok target)
    (other : target ≠ some .directory) :
    (entryFiles descend files scope directory name).Answers
      (fun place => IsSource files scope directory place ∧ directory ++ [name] <+: place)
      fun place fault => Stops files scope directory place fault ∧ directory ++ [name] <+: place := by
  have closed : ¬ files.tree.isDirectoryAt (directory ++ [name]) := by
    intro here
    have same : entry = .directory := by simpa [FileTree.isDirectoryAt, held] using here
    rw [same] at held
    rw [FileSystem.target?_of_lookup? held (FileSystem.fits_of_target? held leads) (by simp)] at leads
    cases leads
    exact other rfl
  have stops : ∀ place fault, (Stops files scope directory place fault ∧
      directory ++ [name] <+: place) ↔ False := by
    intro place fault
    rw [stops_under_iff_of_leads leads]
    simp [closed]
  have sources : ∀ place, (IsSource files scope directory place ∧ directory ++ [name] <+: place) ↔
      place = directory ++ [name] ∧ (∃ bytes, target = some (.file bytes)) ∧
        isEligible scope.extensions name := by
    intro place
    rw [isSource_under_iff_of_leads (by simp [held]) leads]
    simp [closed]
  have noDirectory : (target == some .directory) = false := beq_eq_false_iff_ne.2 other
  by_cases source : (∃ bytes, target = some (.file bytes)) ∧ isEligible scope.extensions name
  · obtain ⟨⟨bytes, rfl⟩, eligible⟩ := source
    have found : entryFiles descend files scope directory name = ⟨[directory ++ [name]], none⟩ := by
      simp only [entryFiles, FileSystem.isDirectory, FileSystem.isFile, leads, Except.map, noDirectory,
        eligible, Bool.and_self, if_true]
    rw [found]
    exact (Found.Answers.one _).congr (fun place => (sources place).trans (by simp [eligible])) stops
  · have nothing : entryFiles descend files scope directory name = {} := by
      simp only [entryFiles, FileSystem.isDirectory, FileSystem.isFile, leads, Except.map, noDirectory]
      split
      · have ineligible : isEligible scope.extensions name = false := by simpa using source
        simp [ineligible]
      · rfl
    rw [nothing]
    exact Found.Answers.nothing.congr (fun place => (sources place).trans (by simp [source])) stops

/-- What an entry contributes answers for what is at and below it, if walking through it does. -/
theorem entryFiles_answers {entry : Entry}
    (held : files.tree.lookup? (directory ++ [name]) = some entry)
    (descends : entry = .directory → (descend (directory ++ [name])).Answers
      (IsSource files scope (directory ++ [name])) (Stops files scope (directory ++ [name]))) :
    (entryFiles descend files scope directory name).Answers
      (fun place => IsSource files scope directory place ∧ directory ++ [name] <+: place)
      fun place fault => Stops files scope directory place fault ∧ directory ++ [name] <+: place := by
  cases leads : files.target? (Place.path (directory ++ [name])) with
  | error cause => exact answers_of_refused (by simp [held]) leads
  | ok target =>
    by_cases through : target = some .directory
    · subst through
      exact answers_of_directory held leads descends
    · exact answers_of_other held leads through

end
end

/-! ## Walks -/

section
variable {files : FileSystem} {scope : Scope}

/-- The number of entries below a directory. -/
def entriesBelow (tree : FileTree) (directory : Place) : Nat :=
  (tree.entries.filter fun entry => directory.isPrefixOf entry.1 && directory != entry.1).length

theorem entriesBelow_lt {tree : FileTree} {directory : Place} {name : Text} {entry : Entry}
    (held : tree.lookup? (directory ++ [name]) = some entry) :
    entriesBelow tree (directory ++ [name]) < entriesBelow tree directory := by
  have inside := FileTree.mem_of_lookup? (by simp) held
  have below : tree.entries.filter (fun entry =>
        (directory ++ [name]).isPrefixOf entry.1 && directory ++ [name] != entry.1) =
      (tree.entries.filter fun entry => directory.isPrefixOf entry.1 && directory != entry.1).filter
        fun entry => (directory ++ [name]).isPrefixOf entry.1 && directory ++ [name] != entry.1 := by
    rw [List.filter_filter]
    apply List.filter_congr
    rintro ⟨place, _⟩ -
    rw [Bool.eq_iff_iff]
    simp only [Bool.and_eq_true, List.isPrefixOf_iff_prefix, bne_iff_ne, ne_eq]
    refine ⟨fun deeper => ⟨deeper, ?_, ?_⟩, fun both => both.1⟩
    · exact (List.prefix_append _ _).trans deeper.1
    · rintro rfl
      have short := deeper.1.length_le
      simp only [List.length_append, List.length_singleton] at short
      omega
  rw [entriesBelow, entriesBelow, below, List.length_filter_lt_length_iff_exists]
  exact ⟨_, List.mem_filter.2 ⟨inside, by simp⟩, by simp⟩

/-- A directory that is listed at its own path lists its own names. -/
theorem names_of_list {directory : Place} (real : files.tree.isDirectoryAt directory)
    {names : List Text} (listed : files.list directory.path = .ok names) :
    names = files.tree.names directory := by
  have held : files.tree.lookup? directory = some .directory := by
    simpa [FileTree.isDirectoryAt] using real
  rw [FileSystem.list] at listed
  split at listed
  · cases listed
  · by_cases fits : FileSystem.Fits directory
    · rw [FileSystem.locate_of_lookup? held fits (.inr (by simp))] at listed
      exact (Except.ok.inj listed).symm
    · rw [FileSystem.locate_of_not_fits held fits] at listed
      cases listed

/-- Whatever is a source below a directory stands at or below one of its names. -/
theorem isSource_iff_of_name {directory place : Place} :
    IsSource files scope directory place ↔ ∃ name ∈ files.tree.names directory,
      IsSource files scope directory place ∧ directory ++ [name] <+: place := by
  refine ⟨fun source => ?_, fun ⟨_, _, source, _⟩ => source⟩
  have ⟨folders, last, same, opens, held, _⟩ := source
  subst same
  cases folders with
  | nil => exact ⟨last, FileTree.mem_names_iff.2 (by simpa using held), source, by simp⟩
  | cons first folders =>
    have entry : (files.tree.lookup? (directory ++ [first])).isSome := by
      have here := opens.1
      rw [FileTree.isDirectoryAt, beq_iff_eq] at here
      simp [here]
    exact ⟨first, FileTree.mem_names_iff.2 entry, source, by simp⟩

/-- Where the directory itself is listed, a walk stops at or below one of its names. -/
theorem stops_iff_of_name {directory place : Place} {fault : WalkFault} {names : List Text}
    (listed : files.list directory.path = .ok names) :
    Stops files scope directory place fault ↔ ∃ name ∈ files.tree.names directory,
      Stops files scope directory place fault ∧ directory ++ [name] <+: place := by
  refine ⟨fun stop => ?_, fun ⟨_, _, stop, _⟩ => stop⟩
  have first : ∃ name below, place = directory ++ name :: below ∧
      (files.tree.lookup? (directory ++ [name])).isSome := by
    have entry : ∀ {name : Text}, files.tree.isDirectoryAt (directory ++ [name]) →
        (files.tree.lookup? (directory ++ [name])).isSome := by
      intro name here
      rw [FileTree.isDirectoryAt, beq_iff_eq] at here
      simp [here]
    cases stop with
    | @listing folders fault opens checked refused =>
      cases folders with
      | nil =>
        rw [List.append_nil, listed] at refused
        cases refused
      | cons first folders => exact ⟨first, folders, rfl, entry opens.1⟩
    | @check folders last fault opens held refused =>
      cases folders with
      | nil => exact ⟨last, [], by simp, by simpa using held⟩
      | cons first folders => exact ⟨first, folders ++ [last], by simp, entry opens.1⟩
  obtain ⟨name, below, rfl, held⟩ := first
  exact ⟨name, FileTree.mem_names_iff.2 held, stop, by simp⟩

theorem names_increasing (tree : FileTree) (directory : Place) :
    (tree.names directory).Pairwise (· < ·) := by
  have distinct := FileTree.names_nodup tree directory
  rw [FileTree.names] at distinct ⊢
  exact (Text.sort_strictlySorted ((Text.sort_perm _).nodup_iff.1 distinct)).imp
    fun order => Text.lt_of_le order.1 order.2

/-- A walk with enough levels answers for everything below the directory it starts in. -/
theorem walk_answers {levels : Nat} {directory : Place} (real : files.tree.isDirectoryAt directory)
    (enough : entriesBelow files.tree directory < levels) :
    (walk files scope levels directory).Answers (IsSource files scope directory)
      (Stops files scope directory) := by
  induction levels generalizing directory with
  | zero => exact absurd enough (Nat.not_lt_zero _)
  | succ levels ih =>
    rw [walk]
    cases listed : files.list directory.path with
    | error fault =>
      have here : Stops files scope directory (directory ++ [])
          (.listing (directory ++ []).path fault) :=
        .listing trivial (fun below => absurd rfl below) (by rwa [List.append_nil])
      rw [List.append_nil] at here
      refine Found.Answers.stopped here ?_ ?_
      · intro place source
        obtain ⟨below, some, rfl⟩ := below_of_isSource source
        exact Place.lt_asymm (Place.lt_of_below _ some)
      · intro place cause stop
        cases stop with
        | @listing folders fault opens checked refused =>
          by_cases top : folders = []
          · subst top
            rw [List.append_nil] at refused ⊢
            rw [listed] at refused
            cases refused
            exact .inl ⟨rfl, rfl⟩
          · exact .inr (Place.lt_of_below _ top)
        | @check folders last fault opens held refused =>
          rw [List.append_assoc]
          exact .inr (Place.lt_of_below _ (by simp))
    | ok names =>
      rw [names_of_list real listed]
      refine (Found.Answers.foldr directory (names_increasing files.tree directory)
        (fun name inside => ?_) ?_).congr (fun place => isSource_iff_of_name) fun place fault =>
          stops_iff_of_name listed
      · obtain ⟨entry, held⟩ := Option.isSome_iff_exists.1 (FileTree.mem_names_iff.1 inside)
        refine entryFiles_answers held fun same => ih ?_ ?_
        · simp [FileTree.isDirectoryAt, held, same]
        · have fewer := entriesBelow_lt held
          omega
      · rintro name place (source | ⟨fault, stop⟩)
        · exact source.2
        · exact stop.2

/-- The order in which the entries of a tree are kept does not matter for a walk. -/
theorem walk_of_perm {tree : FileTree} (same : tree.entries.Perm files.tree.entries) (levels : Nat) :
    walk { files with tree } scope levels = walk files scope levels := by
  have contributions : ∀ descend,
      entryFiles descend { files with tree } scope = entryFiles descend files scope := by
    intro descend
    funext directory name
    simp only [entryFiles, FileSystem.isDirectory, FileSystem.isFile, FileSystem.target?_of_perm same,
      FileSystem.isLink_of_perm same]
  induction levels with
  | zero => rfl
  | succ levels ih =>
    funext directory
    rw [walk, walk, FileSystem.list_of_perm same, ih, contributions]

/-- The source files below a directory are found in the order of their places, up to the first
place where a walk stops, however the entries of the tree are ordered. -/
theorem sourceFiles_answers (files : FileSystem) (scope : Scope) {root : Place}
    (real : files.tree.isDirectoryAt root) :
    (sourceFiles files scope root.path).Answers (IsSource files scope root)
      (Stops files scope root) ∧
    ∀ tree : FileTree, tree.entries.Perm files.tree.entries →
      sourceFiles { files with tree } scope root.path = sourceFiles files scope root.path := by
  have held : files.tree.lookup? root = some .directory := by
    simpa [FileTree.isDirectoryAt] using real
  constructor
  · rw [sourceFiles, Path.segments_path (FileTree.areNames_of_lookup? held)]
    exact walk_answers real (Nat.lt_succ_of_le (List.length_filter_le _ _))
  · intro tree same
    simp only [sourceFiles, walk_of_perm same, same.length_eq]

end

/-- A project with a link whose target has a name of 300 characters. -/
def overlong : FileSystem where
  tree :=
    { entries := [(["app"], .directory), (["app", "a.js"], .file []),
        (["app", "x.js"], .link (List.replicate 300 'a'))]
      distinct := by decide
      named := by decide
      housed := by decide }

/-- The walk ends with a fault at the link although every directory can be listed. -/
theorem overlong_answers :
    (sourceFiles overlong {} (Place.path ["app"])).Answers (IsSource overlong {} ["app"])
      (Stops overlong {} ["app"]) ∧
    overlong.list "/app" = .ok ["a.js", "x.js"] ∧
    sourceFiles overlong {} (Place.path ["app"]) =
      ⟨[["app", "a.js"]], some (.check ⟨.nameTooLong, "/app/x.js"⟩)⟩ := by
  have listed : overlong.list "/app" = .ok ["a.js", "x.js"] :=
    FileSystem.list_of_located rfl
      (rfl : overlong.locate true "/app" = .ok (.entry ["app"] .directory)) rfl (by decide)
  have real : overlong.tree.isDirectoryAt ["app"] := by decide
  refine ⟨(sourceFiles_answers overlong {} real).1, listed, ?_⟩
  have walked : sourceFiles overlong {} (Place.path ["app"]) = walk overlong {} (3 + 1) ["app"] := rfl
  rw [walked, walk]
  have path : Place.path ["app"] = ("/app" : Text) := rfl
  rw [path, listed]
  decide +kernel

end Discovery
end ModuleAtlas
