import ModuleAtlas.Proofs.Resolution.Completion
import ModuleAtlas.Proofs.Scan.Gathered
import ModuleAtlas.Proofs.Scan.Policy
import ModuleAtlas.Proofs.Text.Encoding
/-!
Which files a scan registers. A file is left out if its text cannot be read, or if it cannot be
told what file one of its imports means (`LeavesOut`), and every other file that has been found is
registered (`scan_accounts`), since ids are different and no file goes without a name. Where the
paths of imports are not too long, it is the text alone that matters (`leavesOut_iff_of_short`).
-/
namespace ModuleAtlas.Scan
open ModuleAtlas.Path Resolution

/-! ## Files that are left out -/

/-- The path that a specifier in the file at a place stands for, relative to the project root. -/
def importPath (project : Project) (place : Place) (specifier : Text) : Text :=
  relativePath (Place.path project.files.current) specifier project.settings project.root
    (parent place.path)

/-- The target of a specifier in the file at a place, unless it cannot be told. -/
def importTarget (project : Project) (place : Place) (specifier : Text) : Except FileFault Text :=
  complete project.files project.root Discovery.sourceExtensions
    (importPath project place specifier)

/-- Why the file at a place is left out: its text cannot be read, or it cannot be told what file one
of its imports means. -/
inductive LeavesOut (project : Project) (place : Place) : FileFault → Prop
  | unread {fault : FileFault} (refused : project.files.lenientText place.path = .error fault) :
    LeavesOut project place fault
  | undecided {content specifier : Text} {fault : FileFault}
    (read : project.files.lenientText place.path = .ok content)
    (own : specifier ∈ ownSpecifiers content project.settings)
    (unclear : Undecided project.files project.root Discovery.sourceExtensions
      (importPath project place specifier) fault) : LeavesOut project place fault

theorem isAbsolute_parent {place : Place} (proper : AreNames place) :
    isAbsolute (parent place.path) := by
  rw [parent, root_path proper, ofSegments]
  rfl

section
variable {project : Project} {base place : Place} {fault : FileFault}
  (atRoot : project.root = base.path) (properBase : AreNames base) (proper : AreNames place)
include atRoot properBase proper

/-- The targets of the imports of the file at a place. -/
theorem targets_at (content : Text) :
    targets project.files content (parent place.path) project.root project.settings =
      (ownSpecifiers content project.settings).mapM (importTarget project place) := by
  refine targets_of_normal ?_ ?_ (isAbsolute_parent proper)
  · rw [atRoot]
    exact normalize_path properBase
  · rw [atRoot]
    rfl

theorem leavesOut_of_nodeOf (failed : nodeOf project place = .error fault) :
    LeavesOut project place fault := by
  simp only [nodeOf, targets_at atRoot properBase proper] at failed
  cases read : project.files.lenientText place.path with
  | error other =>
    rw [read] at failed
    cases failed
    exact .unread read
  | ok content =>
    simp only [read, Except.bind] at failed
    cases run : (ownSpecifiers content project.settings).mapM (importTarget project place) with
    | ok imports => simp [run, Except.map] at failed
    | error other =>
      simp only [run, Except.map, Except.error.injEq] at failed
      subst failed
      obtain ⟨specifier, own, refused⟩ := mapM_eq_error run
      exact .undecided read own (complete_eq_error_iff.1 refused)

theorem nodeOf_of_leavesOut (out : LeavesOut project place fault) :
    ∃ other, nodeOf project place = .error other := by
  simp only [nodeOf, targets_at atRoot properBase proper]
  cases out with
  | unread refused => exact ⟨fault, by rw [refused]; rfl⟩
  | undecided read own unclear =>
    have refused : importTarget project place _ = _ := complete_eq_error_iff.2 unclear
    obtain ⟨other, run⟩ := exists_mapM_eq_error own refused
    exact ⟨other, by simp only [read, Except.bind, run, Except.map]⟩

/-- A file has no node exactly if there is a reason to leave it out. -/
theorem exists_leavesOut_iff :
    (∃ fault, LeavesOut project place fault) ↔ ∃ fault, nodeOf project place = .error fault :=
  ⟨fun ⟨_, out⟩ => nodeOf_of_leavesOut atRoot properBase proper out,
    fun ⟨fault, failed⟩ => ⟨fault, leavesOut_of_nodeOf atRoot properBase proper failed⟩⟩

end

/-- No import of the file at a place can mean a file with too long a path. -/
def HasShortImports (project : Project) (place : Place) : Prop :=
  ∀ content, project.files.lenientText place.path = .ok content →
    ∀ specifier ∈ ownSpecifiers content project.settings,
      ∀ q ∈ candidates Discovery.sourceExtensions (importPath project place specifier),
        ¬ project.files.IsOverlong (child project.root q)

/-- With short imports a file is left out only if its text cannot be read. -/
theorem leavesOut_iff_of_short {project : Project} {place : Place}
    (short : HasShortImports project place) {fault : FileFault} :
    LeavesOut project place fault ↔ project.files.lenientText place.path = .error fault := by
  refine ⟨fun out => ?_, .unread⟩
  cases out with
  | unread refused => exact refused
  | undecided read own unclear =>
    obtain ⟨q, candidate, -, long⟩ := unclear.overlong
    exact absurd long (short _ read _ own q candidate)

/-! ## Names of files -/

/-- Cutting a file name leaves something in front of the last dot. -/
theorem stem_ne_nil {fileName : Text} (some : fileName ≠ []) : stem fileName ≠ [] := by
  cases fileName with
  | nil => exact absurd rfl some
  | cons c rest =>
    by_cases dot : c = '.'
    · simp only [stem, dot]
      split <;> simp
    · simp only [stem, List.takeWhile_cons, List.dropWhile_cons, beq_eq_false_iff_ne.2 dot,
        Bool.false_eq_true, if_false, List.nil_append]
      split
      · rename_i dotted
        have later : .scalar '.' ∈ rest.reverse := by simpa [Ne.symm dot] using dotted
        -- The last dot stands behind the first character, which is kept.
        cases cut : rest.reverse.dropWhile (· != .scalar '.') with
        | nil =>
          have none := List.dropWhile_eq_nil_iff.1 cut '.' later
          simp at none
        | cons d front =>
          simp [List.dropWhile_append, cut]
      · simp

/-- No file goes without a name, unless the project does. -/
theorem displayName_ne_nil {id title : Text} (some : basename id ≠ []) (titled : title ≠ []) :
    Source.displayName id title ≠ [] := by
  simp only [Source.displayName]
  split
  · split
    · exact titled
    · simp
  · exact stem_ne_nil some

/-! ## Visiting files -/

/-- The nodes of the files that are not left out. -/
def nodesOf (project : Project) (places : List Place) : List (Node Text) :=
  places.filterMap fun place => (nodeOf project place).toOption

/-- The files that are left out, and why. -/
def reasonsOf (project : Project) (places : List Place) : List (Text × Text) :=
  places.filterMap fun place =>
    match nodeOf project place with
    | .error fault => some (idOf project place, fault.message)
    | .ok _ => none

section
variable {project : Project} {places : List Place}

/-- A node whose id is not taken is registered behind the others. -/
theorem register?_of_fresh (graph : Graph Text) {node : Node Text}
    (fresh : node.id ∉ graph.nodes.keys) :
    ∃ next, graph.register? node = some next ∧ next.nodes.keys = graph.nodes.keys ++ [node.id] := by
  have free : ¬ graph.nodes.contains node.id := fun taken => fresh (Table.contains_iff.1 taken)
  refine ⟨_, by rw [Graph.register?, if_neg free], ?_⟩
  simp only [Table.keys]
  rw [Table.entries_insert_of_not_contains _ _ free, List.map_append]
  rfl

/-- Visiting files with different ids registers all that have a node and a name, and leaves out the
others, each with one notice. -/
theorem visit_skip (graph : Graph Text) (distinct : (places.map (idOf project)).Nodup)
    (fresh : ∀ place ∈ places, idOf project place ∉ graph.nodes.keys)
    (named : ∀ place ∈ places, ∀ node, nodeOf project place = .ok node → node.name ≠ []) :
    ∃ raw, (visit project .skip places graph).graph = .ok raw ∧
      raw.nodes.keys = graph.nodes.keys ++ (nodesOf project places).map Node.id ∧
      (visit project .skip places graph).leftOut = reasonsOf project places := by
  induction places generalizing graph with
  | nil => exact ⟨graph, rfl, by simp [nodesOf], rfl⟩
  | cons place places ih =>
    obtain ⟨apart, distinct⟩ := List.nodup_cons.1 distinct
    obtain ⟨new, fresh⟩ := List.forall_mem_cons.1 fresh
    obtain ⟨title, named⟩ := List.forall_mem_cons.1 named
    cases made : nodeOf project place with
    | error fault =>
      obtain ⟨raw, run, keys, out⟩ := ih (graph.meet (idOf project place)) distinct fresh named
      refine ⟨raw, ?_, ?_, ?_⟩
      · simpa [visit, made, note] using run
      · simpa [nodesOf, made, Graph.meet, Except.toOption] using keys
      · simp only [visit, made]
        simpa [leftOut, note, leftOut?, reasonsOf, made] using out
    | ok node =>
      have same := (nodeOf_eq_ok made).1
      obtain ⟨next, added, keys⟩ :=
        register?_of_fresh (graph.meet (idOf project place)) (same ▸ new)
      have later : ∀ other ∈ places, idOf project other ∉ next.nodes.keys := by
        intro other inside
        rw [keys, List.mem_append, List.mem_singleton, not_or, same]
        refine ⟨fresh other inside, fun again => apart ?_⟩
        exact again ▸ List.mem_map_of_mem inside
      have step : visit project .skip (place :: places) graph = visit project .skip places next := by
        simp [visit, made, title node made, added]
      obtain ⟨raw, run, others, out⟩ := ih next distinct later named
      refine ⟨raw, step ▸ run, ?_, ?_⟩
      · rw [others, keys]
        simp [nodesOf, made, Except.toOption, Graph.meet]
      · rw [step, out]
        simp [reasonsOf, made]

theorem mem_keys_iff {place : Place} (distinct : (places.map (idOf project)).Nodup)
    (inside : place ∈ places) : idOf project place ∈ (nodesOf project places).map Node.id ↔
      ∃ node, nodeOf project place = .ok node := by
  simp only [nodesOf, List.mem_map, List.mem_filterMap]
  constructor
  · rintro ⟨node, ⟨other, among, made⟩, same⟩
    cases run : nodeOf project other with
    | error fault => simp [run, Except.toOption] at made
    | ok found =>
      rw [run, Except.toOption, Option.some.injEq] at made
      subst made
      have one : other = place :=
        List.inj_on_of_nodup_map distinct among inside ((nodeOf_eq_ok run).1.symm.trans same)
      exact ⟨found, one ▸ run⟩
  · rintro ⟨node, made⟩
    exact ⟨node, ⟨place, inside, by rw [made]; rfl⟩, (nodeOf_eq_ok made).1⟩

theorem reasonsOf_ids : (reasonsOf project places).map Prod.fst =
    (places.filter fun place => (nodeOf project place).toOption.isNone).map (idOf project) := by
  induction places with
  | nil => rfl
  | cons place places ih =>
    cases made : nodeOf project place with
    | error fault => simpa [reasonsOf, made, Except.toOption] using ih
    | ok node => simpa [reasonsOf, made, Except.toOption] using ih

theorem mem_reasonsOf {entry : Text × Text} (inside : entry ∈ reasonsOf project places) :
    ∃ place ∈ places, ∃ fault, nodeOf project place = .error fault ∧
      entry = (idOf project place, fault.message) := by
  obtain ⟨place, among, here⟩ := List.mem_filterMap.1 inside
  cases made : nodeOf project place with
  | error fault =>
    rw [made] at here
    exact ⟨place, among, fault, made, (Option.some.inj here).symm⟩
  | ok node => simp [made] at here

end

/-! ## Scans -/

theorem leftOut_conclude (root : Text) (fault : Option Discovery.WalkFault) (visited : Scan) :
    (conclude root fault visited).leftOut = visited.leftOut := by
  simp only [conclude]
  split <;> simp [leftOut, leftOut?]

/-- What the end of the walk makes of files that have been visited. -/
theorem graph_conclude {root : Text} {fault : Option Discovery.WalkFault} {visited : Scan}
    {raw : Graph Text} (run : visited.graph = .ok raw) :
    (conclude root fault visited).graph = match fault with
      | some fault => .error (.walk fault)
      | none => .ok (completed raw) := by
  cases fault <;> simp only [conclude, run]

section
variable {files : FileSystem} (scope : Discovery.Scope) {root real : Text} (policy : ReadPolicy)
  {settings : Settings} {notices : List Notice}

/-- A scan at the real root leaves out what is left out when files are visited. -/
theorem ofRealRoot_eq (loaded : Configuration.load files real = .ok (settings, notices)) :
    let walked := Discovery.sourceFiles files scope real
    let visited := visit { files, root := real, settings } policy walked.files
      (Graph.ofDirectory (name real) real)
    (ofRealRoot files policy scope real).leftOut = visited.leftOut ∧
      (ofRealRoot files policy scope real).graph = (conclude real walked.fault visited).graph := by
  intro walked visited
  have whole : ofRealRoot files policy scope real =
      ⟨notices ++ (conclude real walked.fault visited).notices,
        (conclude real walked.fault visited).graph⟩ := by
    simp only [ofRealRoot, loaded]
    rfl
  rw [whole]
  refine ⟨?_, rfl⟩
  rw [leftOut, List.filterMap_append, Configuration.leftOut_of_search loaded, List.nil_append]
  exact leftOut_conclude real walked.fault visited

/-- A scan of a directory is one of its real path. -/
theorem ofWord_eq {policy : ReadPolicy} {word : Text} (named : ReadPolicy.ofWord? word = some policy)
    (leads : files.target? (clean root) = .ok (some .directory))
    (found : files.realPath (clean root) = .ok real) :
    ofWord files word scope root = ofRealRoot files policy scope real := by
  simp only [ofWord, named, ofPath, leads, found]

end

/-- What becomes of the files that a scan has found: the registry before it is completed, and the
files that are said to be left out. -/
structure Accounts (project : Project) (found : List Place) (raw : Graph Text)
    (out : List (Text × Text)) : Prop where
  listed : raw.files = found.map (idOf project)
  distinct : raw.files.Nodup
  /-- A file is registered unless there is a reason to leave it out. -/
  registered : ∀ place ∈ found, idOf project place ∈ raw.nodes.keys ↔
    ¬ ∃ fault, LeavesOut project place fault
  /-- There is one notice for each file that is not registered. -/
  told : out.map Prod.fst = raw.files.filter fun id => !raw.nodes.contains id
  reasons : ∀ entry ∈ out, ∃ place ∈ found, ∃ fault, LeavesOut project place fault ∧
    entry = (idOf project place, fault.message)

theorem name_nodeOf {project : Project} {place : Place} {node : Node Text}
    (made : nodeOf project place = .ok node) :
    node.name = Source.displayName (idOf project place) (name project.root) := by
  obtain ⟨content, -, run⟩ := bind_eq_ok.1 made
  obtain ⟨imports, -, same⟩ := map_eq_ok.1 run
  rw [← same]

theorem name_path {place : Place} (proper : AreNames place) (below : place ≠ []) :
    name place.path ≠ [] := by
  rw [name, segments_path proper, List.getLast?_eq_some_getLast below]
  exact (proper _ (List.getLast_mem below)).1

theorem basename_ofNames {names : List Text} (proper : AreNames names) (some : names ≠ []) :
    basename (ofNames names) ≠ [] := by
  rw [← List.dropLast_append_getLast some] at proper ⊢
  rw [(dirname_ofNames proper.areSegments).2]
  exact (proper _ (by simp)).1

section
variable {project : Project} {base : Place} (atRoot : project.root = base.path)
  (properBase : AreNames base)
include atRoot properBase

/-- The places of source files have names only. -/
theorem areNames_of_sourceFiles {scope : Discovery.Scope} {place : Place}
    (inside : place ∈ (Discovery.sourceFiles project.files scope project.root).files) :
    AreNames place := by
  have start : segments project.root = base := by rw [atRoot, segments_path properBase]
  simp only [Discovery.sourceFiles, start] at inside
  obtain ⟨names, -, proper, rfl⟩ := Discovery.mem_walk inside
  exact areNames_append.2 ⟨properBase, proper⟩

/-- No node of a source file goes without a name. -/
theorem titled_of_sourceFiles (below : base ≠ []) {scope : Discovery.Scope} {place : Place}
    (inside : place ∈ (Discovery.sourceFiles project.files scope project.root).files)
    {node : Node Text} (made : nodeOf project place = .ok node) : node.name ≠ [] := by
  obtain ⟨named, -⟩ := ids_of_sourceFiles project.files scope properBase project atRoot
  obtain ⟨names, some, proper, same⟩ := named _ (List.mem_map_of_mem inside)
  rw [name_nodeOf made, same, atRoot]
  exact displayName_ne_nil (basename_ofNames proper some) (name_path properBase below)

/-- A registry of the files that have a node accounts for all of them. -/
theorem accounts_of_keys {found : List Place} (proper : ∀ place ∈ found, AreNames place)
    (distinct : (found.map (idOf project)).Nodup) {raw : Graph Text}
    (listed : raw.files = found.map (idOf project))
    (keys : raw.nodes.keys = (nodesOf project found).map Node.id) :
    Accounts project found raw (reasonsOf project found) := by
  have held : ∀ place ∈ found, idOf project place ∈ raw.nodes.keys ↔
      ∃ node, nodeOf project place = .ok node := by
    intro place inside
    rw [keys, mem_keys_iff distinct inside]
  refine ⟨listed, listed ▸ distinct, ?_, ?_, ?_⟩
  · intro place inside
    rw [held place inside, exists_leavesOut_iff atRoot properBase (proper place inside)]
    cases nodeOf project place <;> simp
  · rw [reasonsOf_ids, listed, List.filter_map]
    refine congrArg _ (List.filter_congr fun place inside => ?_)
    have known : raw.nodes.contains (idOf project place) ↔ _ :=
      Table.contains_iff.trans (held place inside)
    cases made : nodeOf project place with
    | error fault => simpa [made, Except.toOption] using known
    | ok node => simpa [made, Except.toOption] using known
  · intro entry inside
    obtain ⟨place, among, fault, failed, same⟩ := mem_reasonsOf inside
    exact ⟨place, among, fault,
      leavesOut_of_nodeOf atRoot properBase (proper place among) failed, same⟩

/-- Visiting the source files of a project accounts for all of them. -/
theorem visit_accounts (below : base ≠ []) (scope : Discovery.Scope) (title root : Text) :
    let found := (Discovery.sourceFiles project.files scope project.root).files
    ∃ raw, (visit project .skip found (Graph.ofDirectory title root)).graph = .ok raw ∧
      Accounts project found raw
        (visit project .skip found (Graph.ofDirectory title root)).leftOut := by
  intro found
  obtain ⟨-, distinct⟩ := ids_of_sourceFiles project.files scope properBase project atRoot
  obtain ⟨raw, run, keys, out⟩ := visit_skip (Graph.ofDirectory title root) distinct
    (by simp [Graph.ofDirectory, Table.keys])
    fun place inside node made => titled_of_sourceFiles atRoot properBase below inside made
  have listed : raw.files = found.map (idOf project) := by
    simpa using ((visits_of_visit run).gathered (gathered_empty title root)).files
  refine ⟨raw, run, out ▸ accounts_of_keys atRoot properBase ?_ distinct listed keys⟩
  exact fun place inside => areNames_of_sourceFiles atRoot properBase inside

end

/-- Something is left out exactly if there is a reason to leave some file out. -/
theorem Accounts.out_eq_nil_iff {project : Project} {found : List Place} {raw : Graph Text}
    {out : List (Text × Text)} (accounts : Accounts project found raw out) :
    out = [] ↔ ∀ place ∈ found, ¬ ∃ fault, LeavesOut project place fault := by
  rw [← List.map_eq_nil_iff (f := Prod.fst), accounts.told, accounts.listed, List.filter_eq_nil_iff]
  simp only [List.forall_mem_map, Bool.not_eq_true', Bool.not_eq_false, Table.contains_iff]
  exact forall₂_congr accounts.registered

/-- What a scan that leaves files out does with those it has found. They are all listed. A file is
registered exactly if its text can be read and it can be told what file each of its imports means,
and each of the others has one notice with a reason; a path or name that is too long is the only
reason that an import can be. The scan has a graph unless the walk has ended early, and the scan
that stops at files that cannot be read does so exactly if there is a file that is left out. -/
theorem scan_accounts {files : FileSystem} (scope : Discovery.Scope) {root real : Text}
    {settings : Settings} {notices : List Notice}
    (leads : files.target? (clean root) = .ok (some .directory))
    (found : files.realPath (clean root) = .ok real) (below : real ≠ [.scalar '/'])
    (loaded : Configuration.load files real = .ok (settings, notices)) :
    let project : Project := { files, root := real, settings }
    let walked := Discovery.sourceFiles files scope real
    let skip := ofWord files "skip" scope root
    let stop := ofWord files "raise" scope root
    ∃ raw, gathered files "skip" scope root = some raw ∧
      Accounts project walked.files raw skip.leftOut ∧
      skip.graph = (match walked.fault with
        | some fault => .error (.walk fault)
        | none => .ok (completed raw)) ∧
      ((∃ path reason, stop.graph = .error (.unreadable path reason)) ↔
        ∃ place ∈ walked.files, ∃ fault, LeavesOut project place fault) ∧
      ((∀ place ∈ walked.files, ¬ ∃ fault, LeavesOut project place fault) → stop = skip) ∧
      ∀ place, HasShortImports project place → ∀ fault,
        (LeavesOut project place fault ↔ files.lenientText place.path = .error fault) := by
  intro project walked skip stop
  obtain ⟨base, properBase, atRoot⟩ := FileSystem.realPath_eq_path leads found
  have inside : base ≠ [] := by
    rintro rfl
    exact below atRoot
  obtain ⟨raw, run, accounts⟩ := @visit_accounts project base atRoot properBase inside scope
    (name real) real
  have policy : ReadPolicy.ofWord? "skip" = some .skip := rfl
  obtain ⟨out, graph⟩ := ofRealRoot_eq scope .skip loaded
  rw [← ofWord_eq scope policy leads found] at out graph
  have accounts : Accounts project walked.files raw skip.leftOut := out ▸ accounts
  have graph : skip.graph = (match walked.fault with
      | some fault => .error (.walk fault)
      | none => .ok (completed raw)) := graph.trans (graph_conclude run)
  have halts : Halts skip stop := ofWord_halts files scope root
  refine ⟨raw, ?_, accounts, graph, ?_, ?_, fun place short fault => leavesOut_iff_of_short short⟩
  · simp only [gathered, policy, found, loaded]
    exact congrArg Except.toOption run
  · rw [halts.unreadable_iff, ne_eq, accounts.out_eq_nil_iff]
    · simp only [not_forall, not_not, exists_prop]
    · intro path reason failed
      rw [graph] at failed
      split at failed <;> cases failed
  · exact fun none => halts.eq_of_complete (accounts.out_eq_nil_iff.2 none)

/-- A source text with an import whose specifier is too long for a name. -/
def farImport : Text :=
  "import x from './" ++ (List.replicate 300 (CodePoint.scalar 'a') ++ [('\'' : CodePoint)])

/-- A project with this source text. -/
def farAway : FileSystem where
  tree :=
    { entries := [(["p"], .directory), (["p", "a.js"], .file (Text.utf8 farImport))]
      distinct := by decide
      named := by decide
      housed := by decide }

theorem sourceFiles_farAway :
    Discovery.sourceFiles farAway {} "/p" = ⟨[["p", "a.js"]], none⟩ := by
  have outer : farAway.list (Place.path ["p"]) = .ok ["a.js"] :=
    FileSystem.list_of_located rfl rfl rfl (by decide)
  show Discovery.walk farAway {} 3 ["p"] = _
  rw [Discovery.walk, outer]
  rfl

/-- The text of a file of the basic alphabet without carriage returns. -/
theorem lenientText_of_bytes {files : FileSystem} {p t : Text}
    (bytes : files.bytes p = .ok (Text.utf8 t)) (basic : t.all fun c => c.toNat < 128)
    (lines : .scalar '\r' ∉ t) : files.lenientText p = .ok t := by
  have small : ∀ c ∈ t, c.toNat < 128 := by simpa using basic
  rw [FileSystem.lenientText, bytes, Except.map, Text.decodeReplacing_utf8 small,
    Text.unifyNewlines_eq lines]

theorem lenientText_farAway : farAway.lenientText (Place.path ["p", "a.js"]) = .ok farImport :=
  lenientText_of_bytes rfl (by decide +kernel) (by decide +kernel)

theorem leavesOut_farAway : ∃ fault,
    LeavesOut { files := farAway, root := "/p", settings := {} } ["p", "a.js"] fault := by
  have own : .scalar '.' :: .scalar '/' :: List.replicate 300 (.scalar 'a') ∈
      ownSpecifiers farImport {} := by decide +kernel
  refine ⟨⟨.nameTooLong, .scalar '/' :: .scalar 'p' :: .scalar '/' :: List.replicate 300 'a'⟩,
    .undecided lenientText_farAway own ?_⟩
  exact complete_eq_error_iff.1 (by decide +kernel)

/-- The file is left out, although its text can be read. -/
theorem farAway_accounts : farAway.lenientText "/p/a.js" = .ok farImport ∧
    ∃ raw, gathered farAway "skip" {} "/p" = some raw ∧ raw.files = [("a.js" : Text)] ∧
      ("a.js" : Text) ∉ raw.nodes.keys ∧
      (ofWord farAway "skip" {} "/p").graph = .ok (completed raw) ∧
      ∃ path reason, (ofWord farAway "raise" {} "/p").graph = .error (.unreadable path reason) := by
  have leads : farAway.target? (clean "/p") = .ok (some .directory) := rfl
  have real : farAway.realPath (clean "/p") = .ok "/p" := rfl
  have loaded : Configuration.load farAway "/p" = .ok ({}, []) := rfl
  obtain ⟨raw, walked, accounts, graph, stops, -⟩ :=
    scan_accounts {} leads real (by decide) loaded
  rw [sourceFiles_farAway] at accounts graph stops
  refine ⟨lenientText_farAway, raw, walked, accounts.listed, ?_, graph, ?_⟩
  · exact fun held => (accounts.registered ["p", "a.js"] (by simp)).1 held leavesOut_farAway
  · exact stops.2 ⟨_, by simp, leavesOut_farAway⟩

end ModuleAtlas.Scan
