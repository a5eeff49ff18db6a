import ModuleAtlas.Proofs.FileTree.Inside
import ModuleAtlas.Proofs.Text.Digit
import ModuleAtlas.Saving
import Mathlib.Data.List.Flatten
import Mathlib.Data.List.Perm.Subperm
/-!
Saving one graph after the other in a directory to which others add entries meanwhile. Every call
ends with a new file under the first of its names that an attempt finds free, and leaves everything
else as it is; no two calls return the same path (`saved_afresh`).
-/
namespace ModuleAtlas.Saving
open ModuleAtlas.Path FileTree FileSystem

/-! ## The names of the attempts -/

/-- Different attempts have different names. -/
theorem fileName_injective (base : Text) {left right : Nat}
    (same : fileName base left = fileName base right) : left = right := by
  have same := List.append_cancel_right same
  have longer : ∀ attempt, base ≠ base ++ .scalar '_' :: Text.ofNat attempt := fun attempt same => by
    simpa using congrArg List.length same
  split at same <;> split at same
  · rename_i zero alsoZero
    rw [zero, alsoZero]
  · exact absurd same (longer right)
  · exact absurd same.symm (longer left)
  · exact Text.ofNat_injective (by simpa using List.append_cancel_left same)

theorem isDigit_of_mem_padded {width n : Nat} {c : CodePoint} (inside : c ∈ Text.padded width n) :
    c.isDigit := by
  rcases List.mem_append.1 inside with zero | digit
  · rw [List.eq_of_mem_replicate zero]
    rfl
  · exact (Text.isNumeral_ofNat n).digits c digit

/-- The time in a file name has digits and a line only. -/
theorem mem_stamp {now : Moment} {c : CodePoint} (inside : c ∈ stamp now) : c.isDigit ∨ c = '_' := by
  simp only [stamp, List.mem_append, List.mem_cons] at inside
  rcases inside with (((((year | month) | day) | line | hour) | minute) | second)
  · exact .inl ((Text.isNumeral_ofNat _).digits c year)
  · exact .inl (isDigit_of_mem_padded month)
  · exact .inl (isDigit_of_mem_padded day)
  · exact .inr line
  · exact .inl (isDigit_of_mem_padded hour)
  · exact .inl (isDigit_of_mem_padded minute)
  · exact .inl (isDigit_of_mem_padded second)

/-- No character of a graph's file name is forbidden if none of the shown name of its root is. -/
theorem not_mem_baseName {α : Type} [Label α] {now : Moment} {graph : Graph α} {c : CodePoint}
    (clear : c ∉ Label.shown graph.root.name) (noDigit : ¬ c.isDigit) (noLine : c ≠ '_') :
    c ∉ baseName now graph := by
  intro inside
  rcases List.mem_append.1 inside with shown | stamped
  · exact clear shown
  rcases List.mem_cons.1 stamped with line | time
  · exact noLine line
  · exact (mem_stamp time).elim noDigit noLine

theorem isLegal_scalar {c : Char} (some : c ≠ '\x00') : Text.isLegal c := by
  have bytes : Text.bytesOf c ≠ [] := by
    rw [Text.bytesOf, String.utf8EncodeChar]
    repeat' split
    all_goals simp
  simp [Text.isLegal, Text.isEncodable, bytes, some]

/-- Digits and lines can stand in a path. -/
theorem isLegal_of_isDigit {c : CodePoint} (digit : c.isDigit ∨ c = '_') : Text.isLegal c := by
  rcases digit with digit | rfl
  · have bounds := Text.isDigit_iff.1 digit
    cases c with
    | scalar c =>
      refine isLegal_scalar ?_
      rintro rfl
      exact absurd bounds.1 (by decide)
    | surrogate index => exact absurd bounds.2 (by simp only [CodePoint.toNat]; omega)
  · decide

theorem isLegal_baseName {α : Type} [Label α] {now : Moment} {graph : Graph α}
    (legal : (Label.shown graph.root.name).IsLegal) : (baseName now graph).IsLegal :=
  List.forall_mem_append.2 ⟨legal, List.forall_mem_cons.2
    ⟨by decide, fun _ inside => isLegal_of_isDigit (mem_stamp inside)⟩⟩

theorem isLegal_fileName {base : Text} (legal : base.IsLegal) (attempt : Nat) :
    (fileName base attempt).IsLegal := by
  have number : (Text.ofNat attempt).IsLegal := fun c inside =>
    isLegal_of_isDigit (.inl ((Text.isNumeral_ofNat _).digits c inside))
  refine List.forall_mem_append.2 ⟨?_, by decide⟩
  split
  · exact legal
  · exact List.forall_mem_append.2 ⟨legal, List.forall_mem_cons.2 ⟨by decide, number⟩⟩

theorem not_mem_fileName {base : Text} {c : CodePoint} (clear : c ∉ base) (noDigit : ¬ c.isDigit)
    (noLine : c ≠ '_') (noEnd : c ∉ (".json" : Text)) (attempt : Nat) : c ∉ fileName base attempt := by
  intro inside
  rcases List.mem_append.1 inside with numbered | ending
  · split at numbered
    · exact clear numbered
    · rcases List.mem_append.1 numbered with same | suffix
      · exact clear same
      rcases List.mem_cons.1 suffix with line | digit
      · exact noLine line
      · exact noDigit ((Text.isNumeral_ofNat _).digits c digit)
  · exact noEnd ending

/-- A directory can hold an entry of every name that is tried. -/
theorem isEntryName_fileName {base : Text} (noSlash : .scalar '/' ∉ base) (legal : base.IsLegal)
    (attempt : Nat) : isEntryName (fileName base attempt) := by
  have slash := not_mem_fileName noSlash (by decide) (by decide) (by decide) attempt
  have legal := isLegal_fileName legal attempt
  have long : 5 ≤ (fileName base attempt).length := by
    rw [fileName, List.length_append]
    exact Nat.le_add_left _ _
  have nonempty : fileName base attempt ≠ [] := fun same => by simp [same] at long
  have noDot : fileName base attempt ≠ [.scalar '.'] := fun same => by simp [same] at long
  have noUp : fileName base attempt ≠ (['.', '.'] : Text) := fun same => by simp [same] at long
  exact isEntryName_iff.2 ⟨nonempty, slash, legal, noDot, noUp⟩

/-! ## What others add -/

section
variable (files : FileSystem)

theorem addAll_append (first second : Additions) :
    addAll files (first ++ second) = addAll (addAll files first) second := by
  simp only [addAll, List.foldl_append]

theorem grows_addAll (additions : Additions) :
    files.tree.Grows (addAll files additions).tree := by
  induction additions generalizing files with
  | nil => exact List.prefix_refl _
  | cons entry rest ih =>
    exact List.IsPrefix.trans (grows_add ..) (ih { files with tree := files.tree.add entry.1 entry.2 })

theorem length_addAll (additions : Additions) :
    (addAll files additions).tree.entries.length ≤ files.tree.entries.length + additions.length := by
  induction additions generalizing files with
  | nil => exact Nat.le_refl _
  | cons entry rest ih =>
    have one : (files.tree.add entry.1 entry.2).entries.length ≤ files.tree.entries.length + 1 := by
      rw [FileTree.add]
      split
      · simp [FileTree.extend]
      · exact Nat.le_succ _
    have more := ih { files with tree := files.tree.add entry.1 entry.2 }
    rw [List.length_cons]
    exact Nat.le_trans more (by simp only; omega)

/-- The files at an attempt of a call, with what others have added until then. -/
def filesAt (others : List Additions) (attempt : Nat) : FileSystem :=
  addAll files (others.take (attempt + 1)).flatten

theorem filesAt_eq (others : List Additions) (attempt : Nat) :
    filesAt files others attempt =
      addAll (addAll files (others.take attempt).flatten) ((others.drop attempt).headD []) := by
  have step : (others.take (attempt + 1)).flatten =
      (others.take attempt).flatten ++ (others.drop attempt).headD [] := by
    induction others generalizing attempt with
    | nil => simp
    | cons additions others ih =>
      cases attempt with
      | zero => simp
      | succ attempt => simpa using ih attempt
  rw [filesAt, step, addAll_append]

/-- What others add in the course of a call adds up. -/
theorem grows_filesAt {others : List Additions} {earlier later : Nat} (ordered : earlier ≤ later) :
    (filesAt files others earlier).tree.Grows (filesAt files others later).tree := by
  obtain ⟨more, same⟩ : ∃ more, (others.take (later + 1)).flatten =
      (others.take (earlier + 1)).flatten ++ more := by
    obtain ⟨rest, same⟩ := List.take_prefix_take_left (l := others) (Nat.succ_le_succ ordered)
    exact ⟨rest.flatten, by rw [← same, List.flatten_append]⟩
  rw [filesAt, filesAt, same, addAll_append]
  exact grows_addAll _ _

/-! ## The first free name -/

/-- The name of an attempt is free when its turn comes, and that of every earlier one was taken. -/
structure IsFirstFree (others : List Additions) (directory : Place) (base : Text) (attempt : Nat) :
    Prop where
  free : (filesAt files others attempt).tree.lookup? (directory ++ [fileName base attempt]) = none
  taken : ∀ earlier < attempt,
    ((filesAt files others earlier).tree.lookup? (directory ++ [fileName base earlier])).isSome

end

section
variable {files : FileSystem} {others : List Additions} {directory : Place} {base : Text}

theorem IsFirstFree.unique {first second : Nat} (one : IsFirstFree files others directory base first)
    (two : IsFirstFree files others directory base second) : first = second := by
  rcases Nat.lt_trichotomy first second with less | same | more
  · simpa [one.free] using two.taken first less
  · exact same
  · simpa [two.free] using one.taken second more

/-- Of more names than there are entries, with those that others add, one is free. -/
theorem exists_free (files : FileSystem) (others : List Additions) (directory : Place)
    (base : Text) : ∃ attempt ≤ files.tree.entries.length + others.flatten.length,
      (filesAt files others attempt).tree.lookup? (directory ++ [fileName base attempt]) = none := by
  by_contra none
  push Not at none
  -- A name that is taken at its attempt is still taken at the last one, so the entries of that time
  -- would include all of these names.
  let bound := files.tree.entries.length + others.flatten.length
  let tried := (List.range (bound + 1)).map fun attempt => directory ++ [fileName base attempt]
  have distinct : tried.Nodup := List.Nodup.map
    (fun first second same => fileName_injective base (by simpa using same)) List.nodup_range
  have held : tried ⊆ (filesAt files others bound).tree.entries.map Prod.fst := by
    intro place inside
    obtain ⟨attempt, below, rfl⟩ := List.mem_map.1 inside
    have low : attempt ≤ bound := Nat.lt_succ_iff.1 (List.mem_range.1 below)
    obtain ⟨entry, found⟩ := Option.ne_none_iff_exists'.1 (none attempt low)
    have still := lookup?_of_grows (grows_filesAt files low) found
    exact List.mem_map.2 ⟨_, mem_of_lookup? (by simp) still, rfl⟩
  have room : (filesAt files others bound).tree.entries.length ≤ bound :=
    Nat.le_trans (length_addAll ..)
      (Nat.add_le_add_left (List.take_sublist (bound + 1) others).flatten.length_le _)
  have enough : bound + 1 ≤ (filesAt files others bound).tree.entries.length := by
    simpa [tried] using (List.subperm_of_subset distinct held).length_le
  omega

theorem exists_firstFree (files : FileSystem) (others : List Additions) (directory : Place)
    (base : Text) : ∃ attempt ≤ files.tree.entries.length + others.flatten.length,
      IsFirstFree files others directory base attempt := by
  obtain ⟨attempt, low, free⟩ := exists_free files others directory base
  have exists_free : ∃ attempt, (filesAt files others attempt).tree.lookup?
      (directory ++ [fileName base attempt]) = none := ⟨attempt, free⟩
  refine ⟨Nat.find exists_free, Nat.le_trans (Nat.find_min' exists_free free) low,
    Nat.find_spec exists_free, fun earlier before => ?_⟩
  exact Option.isSome_iff_ne_none.2 (Nat.find_min exists_free before)

end

/-! ## One call -/

section
variable {files : FileSystem} {others : List Additions} {directory : Place} {base path : Text}
  {last : Nat} (leads : files.locate true (clean path) = .ok (.entry directory .directory))
  (named : ∀ attempt, isEntryName (fileName base attempt))
  (first : IsFirstFree files others directory base last)
  (short : ∀ attempt ≤ last, ¬ IsLong path (fileName base attempt))
include leads

theorem locate_filesAt (others : List Additions) (attempt : Nat) :
    (filesAt files others attempt).locate true (clean path) =
      .ok (.entry directory .directory) :=
  locate_of_grows (grows_addAll files _) leads

include named first short

/-- From any attempt up to the first free name, saving goes on to that name and creates it. -/
theorem saveFrom_of_firstFree (bytes : List UInt8) {attempts attempt : Nat} (before : attempt ≤ last)
    (enough : last < attempt + attempts) :
    saveFrom (clean path) base bytes attempts (others.drop attempt) attempt
        (addAll files (others.take attempt).flatten) =
      ((filesAt files others last).add directory (fileName base last) (.file bytes),
        .ok (child (clean path) (fileName base last))) := by
  induction attempts generalizing attempt with
  | zero => omega
  | succ attempts ih =>
    have there := locate_filesAt leads others attempt
    rw [saveFrom, ← filesAt_eq]
    rcases Nat.lt_or_eq_of_le before with earlier | same
    · have taken := create_of_taken (named attempt) there (short attempt before)
        (first.taken attempt earlier) (.file bytes)
      simp only [taken, if_true, List.tail_drop]
      exact ih earlier (by omega)
    · subst same
      simp only [create_of_free (named attempt) there (short attempt before) first.free]

theorem saveAmong_of_firstFree {α : Type} [Label α] {now : Moment} {graph : Graph α}
    (same : baseName now graph = base) :
    saveAmong others files path now graph =
      ((filesAt files others last).add directory (fileName base last) (.file (content graph)),
        .ok (child (clean path) (fileName base last))) := by
  obtain ⟨attempt, low, also⟩ := exists_firstFree files others directory base
  rw [also.unique first] at low
  have enough : last < 0 + (files.tree.entries.length + others.flatten.length + 1) := by omega
  have created := saveFrom_of_firstFree leads named first short (content graph) (Nat.zero_le last) enough
  simp only [saveAmong, makeDirectories_of_leads leads, same]
  exact created

end

/-- A call to save a graph, and what others add to the files before each attempt of it. -/
structure Call where
  {α : Type}
  [label : Label α]
  graph : Graph α
  now : Moment
  others : List Additions

attribute [instance] Call.label

namespace Call

/-- The files after the call, and what it returns. -/
def run (call : Call) (path : Text) (files : FileSystem) : FileSystem × Except FileFault Text :=
  saveAmong call.others files path call.now call.graph

/-- The file name of the call before its number and extension. -/
def base (call : Call) : Text := baseName call.now call.graph

/-- The name under which the graph's root is shown can be part of a file name. -/
def IsNamed (call : Call) : Prop :=
  .scalar '/' ∉ Label.shown call.graph.root.name ∧ (Label.shown call.graph.root.name).IsLegal

theorem isEntryName_fileName {call : Call} (named : call.IsNamed) (attempt : Nat) :
    isEntryName (fileName call.base attempt) :=
  Saving.isEntryName_fileName (not_mem_baseName named.1 (by decide) (by decide))
    (isLegal_baseName named.2) attempt

/-- The call creates the file with the first of its names that is free and returns its path. All
that was there and all that others have added stays as it is, and nothing else is new. -/
structure Creates (call : Call) (path : Text) (directory : Place) (before after : FileSystem)
    (attempt : Nat) (result : Text) : Prop where
  first : IsFirstFree before call.others directory call.base attempt
  entries : after.tree.entries = (filesAt before call.others attempt).tree.entries ++
    [(directory ++ [fileName call.base attempt], .file (Text.utf8 (call.graph.text (.indented 2))))]
  around : after = { before with tree := after.tree }
  returned : result = child (clean path) (fileName call.base attempt)
  found : after.locate false result =
    .ok (.entry (directory ++ [fileName call.base attempt])
      (.file (Text.utf8 (call.graph.text (.indented 2)))))

variable {call : Call} {path result : Text} {directory : Place} {before after : FileSystem}
  {attempt : Nat}

theorem Creates.grows (creates : call.Creates path directory before after attempt result) :
    before.tree.Grows after.tree := by
  have created : (filesAt before call.others attempt).tree.Grows after.tree := by
    rw [Grows, creates.entries]
    exact List.prefix_append _ _
  exact List.IsPrefix.trans (grows_addAll before _) created

/-- A call whose names fit up to the first free one creates the file of this name. -/
theorem run_creates (leads : before.locate true (clean path) = .ok (.entry directory .directory))
    (named : call.IsNamed) (first : IsFirstFree before call.others directory call.base attempt)
    (short : ∀ tried ≤ attempt, ¬ IsLong path (fileName call.base tried)) :
    ∃ after result, call.run path before = (after, .ok result) ∧
      call.Creates path directory before after attempt result := by
  have proper := isEntryName_fileName named attempt
  have there := locate_filesAt leads call.others attempt
  refine ⟨_, _, saveAmong_of_firstFree leads (isEntryName_fileName named) first short rfl, ?_⟩
  exact {
    first
    entries := entries_add proper there first.free _
    around := rfl
    returned := rfl
    found := locate_add proper there (short attempt (Nat.le_refl _)) first.free _ }

end Call

/-! ## One call after the other -/

/-- The files after the calls, and what they return. -/
def saveAll (path : Text) : FileSystem → List Call → FileSystem × List (Except FileFault Text)
  | files, [] => (files, [])
  | files, call :: calls =>
    let (between, result) := call.run path files
    let (after, results) := saveAll path between calls
    (after, result :: results)

/-- Each call creates a file and returns its path. -/
inductive Saves (path : Text) (directory : Place) :
    FileSystem → List Call → List Text → FileSystem → Prop
  | done {files : FileSystem} : Saves path directory files [] [] files
  | next {before between after : FileSystem} {call : Call} {calls : List Call} {attempt : Nat}
    {result : Text} {results : List Text}
    (creates : call.Creates path directory before between attempt result)
    (later : Saves path directory between calls results after) :
    Saves path directory before (call :: calls) (result :: results) after

/-- In each call, no name is too long up to the first free one. -/
def Fits (path : Text) (directory : Place) : FileSystem → List Call → Prop
  | _, [] => True
  | files, call :: calls =>
    (∀ attempt, IsFirstFree files call.others directory call.base attempt →
      ∀ tried ≤ attempt, ¬ IsLong path (fileName call.base tried)) ∧
    Fits path directory (call.run path files).1 calls

section
variable {path : Text} {directory : Place} {before after : FileSystem} {calls : List Call}
  {results : List Text}

theorem Saves.grows (saves : Saves path directory before calls results after) :
    before.tree.Grows after.tree := by
  induction saves with
  | done => exact List.prefix_refl _
  | next creates _ ih => exact List.IsPrefix.trans creates.grows ih

/-- Every path that is returned is that of a name that was free in the beginning. -/
theorem Saves.was_free (saves : Saves path directory before calls results after)
    (named : ∀ call ∈ calls, call.IsNamed) {result : Text} (inside : result ∈ results) :
    ∃ name, isEntryName name ∧ result = child (clean path) name ∧
      before.tree.lookup? (directory ++ [name]) = none := by
  induction saves with
  | done => cases inside
  | @next before _ _ call _ attempt _ _ creates _ ih =>
    obtain ⟨own, others⟩ := List.forall_mem_cons.1 named
    rcases List.mem_cons.1 inside with same | later
    · exact ⟨_, Call.isEntryName_fileName own attempt, same.trans creates.returned,
        free_of_grows (grows_addAll before _) creates.first.free⟩
    · obtain ⟨name, proper, same, free⟩ := ih others later
      exact ⟨name, proper, same, free_of_grows creates.grows free⟩

/-- No path is returned twice: the name of an earlier file is not free any more. -/
theorem Saves.nodup (saves : Saves path directory before calls results after)
    (named : ∀ call ∈ calls, call.IsNamed) : results.Nodup := by
  induction saves with
  | done => exact List.nodup_nil
  | @next _ between _ call _ attempt _ _ creates later ih =>
    obtain ⟨own, others⟩ := List.forall_mem_cons.1 named
    refine List.nodup_cons.2 ⟨fun again => ?_, ih others⟩
    obtain ⟨name, proper, same, free⟩ := later.was_free others again
    have one : fileName call.base attempt = name :=
      child_injective (Call.isEntryName_fileName own attempt) proper (creates.returned.symm.trans same)
    have held : between.tree.lookup? (directory ++ [fileName call.base attempt]) =
        some (.file (Text.utf8 (call.graph.text (.indented 2)))) :=
      lookup?_of_mem (by simp [creates.entries])
    rw [one, free] at held
    cases held

end

/-- Graphs are saved one after the other in a directory, while others add finitely many entries,
anywhere, before each attempt. Then each call returns the path of one new file, which has the first
of its names that an attempt finds free and the bytes of its graph; all entries that there are at
any time stay as they are, and no two calls return the same path. -/
theorem saved_afresh {files : FileSystem} {path : Text} {directory : Place} {calls : List Call}
    (leads : files.locate true (clean path) = .ok (.entry directory .directory))
    (named : ∀ call ∈ calls, call.IsNamed) (fits : Fits path directory files calls) :
    ∃ last results, saveAll path files calls = (last, results.map .ok) ∧
      Saves path directory files calls results last ∧ files.tree.Grows last.tree ∧
        results.Nodup := by
  suffices saved : ∃ last results, saveAll path files calls = (last, results.map .ok) ∧
      Saves path directory files calls results last by
    obtain ⟨last, results, runs, saves⟩ := saved
    exact ⟨last, results, runs, saves, saves.grows, saves.nodup named⟩
  -- Each call leaves files in which the path still leads to the directory.
  induction calls generalizing files with
  | nil => exact ⟨files, [], rfl, .done⟩
  | cons call calls ih =>
    obtain ⟨own, others⟩ := List.forall_mem_cons.1 named
    obtain ⟨attempt, -, first⟩ := exists_firstFree files call.others directory call.base
    obtain ⟨between, result, run, creates⟩ :=
      Call.run_creates leads own first (fits.1 attempt first)
    have further : between.locate true (clean path) = .ok (.entry directory .directory) := by
      rw [creates.around]
      exact locate_of_grows creates.grows leads
    have rest : Fits path directory between calls := by
      have rest := fits.2
      rwa [run] at rest
    obtain ⟨last, results, runs, saves⟩ := ih further others rest
    refine ⟨last, result :: results, ?_, .next creates saves⟩
    simp only [saveAll, run, runs, List.map_cons]

/-- A directory in which a link to nowhere has the first name of a graph. -/
def occupied : FileSystem where
  tree := (FileTree.empty.add ["d"] .directory).add ["d", "p_20240102_030405.json"] (.link "/gone")

/-- A graph with one file, which imports something with a name out of the ordinary. -/
def oneFile : Graph Text where
  root := (Graph.ofDirectory "p" "/p" : Graph Text).root
  nodes := Table.ofList
    [("a.js", { id := "a.js", name := "a", path := "a.js", kind := "util", imports := ["é\""] })]
  files := ["a.js"]

/-- What a file has to hold in which the graph is saved. -/
def oneFileText : Text := Text.joinWith ['\n'] [
  "\x7b", "  \"root\": \x7b", "    \"id\": \"root\",", "    \"name\": \"p\",",
  "    \"path\": \"/p\",", "    \"type\": \"root\",", "    \"multipleComp\": false,",
  "    \"imports\": [],", "    \"importedBy\": []", "  \x7d,", "  \"nodesMap\": \x7b",
  "    \"a.js\": \x7b", "      \"id\": \"a.js\",", "      \"name\": \"a\",",
  "      \"path\": \"a.js\",", "      \"type\": \"util\",", "      \"multipleComp\": false,",
  "      \"imports\": [", "        \"\\u00e9\\\"\"", "      ],", "      \"importedBy\": []",
  "    \x7d", "  \x7d,", "  \"files\": [", "    \"a.js\"", "  ],", "  \"stats\": \x7b",
  "    \"totalComponents\": 0,", "    \"multiCompFiles\": 0,", "    \"componentFiles\": 0,",
  "    \"stateFiles\": 0,", "    \"utilFiles\": 0", "  \x7d", "\x7d"]

/-- The graph is saved while another process makes a directory of its second name, and once more
in the same second. -/
def racing : Call where
  graph := oneFile
  now := ⟨⟨2024, 1, 2⟩, 3, 4, 5, 0, none⟩
  others := [[], [(["d", "p_20240102_030405_1.json"], .directory)]]

def repeated : Call := { racing with others := [] }

theorem firstFree_racing : IsFirstFree occupied racing.others ["d"] racing.base 2 :=
  ⟨by decide +kernel, by decide +kernel⟩

theorem short_racing : ∀ tried ≤ 3, ¬ IsLong "/d" (fileName racing.base tried) := by
  unfold IsLong
  decide +kernel

theorem firstFree_repeated {between : FileSystem} {result : Text}
    (creates : racing.Creates "/d" ["d"] occupied between 2 result) :
    IsFirstFree between repeated.others ["d"] repeated.base 3 := by
  have alone : ∀ attempt, filesAt between repeated.others attempt = between := fun _ => rfl
  constructor
  · rw [alone, FileTree.lookup?, creates.entries]
    decide +kernel
  · simp only [alone, FileTree.lookup?, creates.entries]
    decide +kernel

theorem oneFile_text : oneFile.text (.indented 2) = oneFileText := by decide +kernel

/-- The directory in the end. -/
def bothSaved : List (Place × Entry) :=
  [(["d"], .directory), (["d", "p_20240102_030405.json"], .link "/gone"),
    (["d", "p_20240102_030405_1.json"], .directory),
    (["d", "p_20240102_030405_2.json"], .file (Text.utf8 oneFileText)),
    (["d", "p_20240102_030405_3.json"], .file (Text.utf8 oneFileText))]

/-- The first file gets the third name and the second one the fourth. -/
theorem racing_saved_afresh : ∃ last : FileSystem,
    saveAll "/d" occupied [racing, repeated] =
      (last, [.ok "/d/p_20240102_030405_2.json", .ok "/d/p_20240102_030405_3.json"]) ∧
    last.tree.entries = bothSaved := by
  have leads : occupied.locate true (clean "/d") = .ok (.entry ["d"] .directory) := rfl
  have named : ∀ call ∈ [racing, repeated], call.IsNamed := by
    have own : racing.IsNamed := ⟨by decide, by decide⟩
    exact List.forall_mem_cons.2 ⟨own, List.forall_mem_cons.2 ⟨own, by simp⟩⟩
  have fits : Fits "/d" ["d"] occupied [racing, repeated] := by
    refine ⟨fun attempt first tried low => ?_, ?_, trivial⟩
    · rw [first.unique firstFree_racing] at low
      exact short_racing tried (Nat.le_succ_of_le low)
    · obtain ⟨between, result, run, creates⟩ := Call.run_creates leads (named racing (by simp))
        firstFree_racing fun tried low => short_racing tried (Nat.le_succ_of_le low)
      rw [run]
      intro attempt first tried low
      rw [first.unique (firstFree_repeated creates)] at low
      exact short_racing tried low
  obtain ⟨last, results, saved, saves, -, -⟩ := saved_afresh leads named fits
  obtain _ | @⟨_, between, _, _, _, attempt, result, _, creates, later⟩ := saves
  obtain rfl : attempt = 2 := creates.first.unique firstFree_racing
  obtain _ | @⟨_, _, _, _, _, attempt, other, _, further, ends⟩ := later
  obtain rfl : attempt = 3 := further.first.unique (firstFree_repeated creates)
  cases ends
  rw [saved, creates.returned, further.returned]
  refine ⟨last, rfl, ?_⟩
  have alone : filesAt between repeated.others 3 = between := rfl
  have first : racing.graph.text (.indented 2) = oneFileText := oneFile_text
  have second : repeated.graph.text (.indented 2) = oneFileText := oneFile_text
  rw [further.entries, alone, creates.entries, first, second]
  rfl

end ModuleAtlas.Saving
