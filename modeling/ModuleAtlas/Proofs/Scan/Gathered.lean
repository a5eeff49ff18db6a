import ModuleAtlas.Proofs.Discovery.Walk
import ModuleAtlas.Proofs.Graph.Stats
import ModuleAtlas.Scan
/-!
What a scan has gathered when its walk has ended and before its graph is completed. The files of
the project have pairwise different ids (`ids_of_sourceFiles`); every one of them is listed, and the
registry holds nodes of some of them under their ids, all of which have been counted (`Gathered`).
-/
namespace ModuleAtlas.Scan
open ModuleAtlas.Path

/-! ## The ids of the files of a project -/

/-- The ids of the source files of the project at a path, in the order of the walk. -/
def discovered (files : FileSystem) (scope : Discovery.Scope) (root : Text) : List Text :=
  match files.realPath (clean root) with
  | .ok real =>
    (Discovery.sourceFiles files scope real).files.map (idOf { files, root := real, settings := {} })
  | .error _ => []

/-- The registry and the list of files that the walk of a scan leaves. -/
def gathered (files : FileSystem) (word : Text) (scope : Discovery.Scope) (root : Text) :
    Option (Graph Text) :=
  match ReadPolicy.ofWord? word, files.realPath (clean root) with
  | some policy, .ok real =>
    match Configuration.load files real with
    | .ok (settings, _) =>
      (visit { files, root := real, settings } policy (Discovery.sourceFiles files scope real).files
        (Graph.ofDirectory (name real) real)).graph.toOption
    | .error _ => none
  | _, _ => none

/-- The id of a file below the root is the names that lead to it from there. -/
theorem idOf_eq (project : Project) {base below : Place} (atRoot : project.root = base.path)
    (proper : AreNames (base ++ below)) (some : below ≠ []) :
    idOf project (base ++ below) = ofNames below := by
  rw [idOf, atRoot]
  exact relative_path _ proper some

/-- The files that a scan finds have ids that are names with slashes between them, and no id is
that of two files. -/
theorem ids_of_sourceFiles (files : FileSystem) (scope : Discovery.Scope) {base : Place}
    (proper : AreNames base) (project : Project) (atRoot : project.root = base.path) :
    (∀ id ∈ (Discovery.sourceFiles files scope project.root).files.map (idOf project),
      ∃ names, names ≠ [] ∧ AreNames names ∧ id = ofNames names) ∧
    ((Discovery.sourceFiles files scope project.root).files.map (idOf project)).Nodup := by
  have start : segments project.root = base := by rw [atRoot, segments_path proper]
  have found : ∀ place ∈ (Discovery.sourceFiles files scope project.root).files,
      ∃ below, below ≠ [] ∧ AreNames below ∧ place = base ++ below ∧
        idOf project place = ofNames below := by
    intro place inside
    rw [Discovery.sourceFiles, start] at inside
    obtain ⟨below, some, named, rfl⟩ := Discovery.mem_walk inside
    exact ⟨below, some, named, rfl, idOf_eq project atRoot (areNames_append.2 ⟨proper, named⟩) some⟩
  constructor
  · intro id inside
    obtain ⟨place, listed, rfl⟩ := List.mem_map.1 inside
    obtain ⟨below, some, named, _, same⟩ := found place listed
    exact ⟨below, some, named, same⟩
  · apply List.Nodup.map_on _ (Discovery.walk_nodup _ _)
    intro left inLeft right inRight same
    obtain ⟨_, _, namedLeft, rfl, idLeft⟩ := found left inLeft
    obtain ⟨_, _, namedRight, rfl, idRight⟩ := found right inRight
    rw [ofNames_injective namedLeft.areSegments namedRight.areSegments
      (idLeft.symm.trans (same.trans idRight))]

/-! ## What visiting files leaves -/

/-- The graph of a project some of whose files have been visited. -/
structure Gathered (ids : List Text) (graph : Graph Text) : Prop where
  files : graph.files = ids
  /-- A registered node is that of a file whose id is its key. -/
  registered : ∀ entry ∈ graph.nodes.entries, entry.2.id = entry.1 ∧ entry.2.path = entry.1 ∧
    entry.1 ∈ ids ∧ entry.2.children = [] ∧ ∃ role : Role, entry.2.kind = role.word
  counted : graph.stats = Stats.recount graph.nodes.values

theorem gathered_meet {ids : List Text} {graph : Graph Text} (before : Gathered ids graph)
    (id : Text) : Gathered (ids ++ [id]) (graph.meet id) := by
  refine ⟨congrArg (· ++ [id]) before.files, ?_, before.counted⟩
  intro entry inside
  obtain ⟨sameId, samePath, listed, rest⟩ := before.registered entry inside
  exact ⟨sameId, samePath, List.mem_append_left _ listed, rest⟩

theorem gathered_register {ids : List Text} {graph next : Graph Text} {node : Node Text}
    (before : Gathered ids graph) (path : node.path = node.id) (listed : node.id ∈ ids)
    (childless : node.children = []) {role : Role} (kind : node.kind = role.word)
    (added : graph.register? node = some next) : Gathered ids next := by
  rw [Graph.register?] at added
  split at added
  · simp at added
  · rename_i fresh
    rw [← Option.some.inj added]
    have entries := Table.entries_insert_of_not_contains graph.nodes node fresh
    refine ⟨before.files, ?_, ?_⟩
    · intro entry inside
      rw [entries] at inside
      rcases List.mem_append.1 inside with older | last
      · exact before.registered entry older
      · rw [List.mem_singleton.1 last]
        exact ⟨rfl, path, listed, childless, role, kind⟩
    · have values : (graph.nodes.insert node.id node).values = graph.nodes.values ++ [node] := by
        rw [Table.values, entries, List.map_append]
        rfl
      rw [values, ← Stats.record_recount, ← before.counted]

theorem nodeOf_eq_ok {project : Project} {place : Place} {node : Node Text}
    (made : nodeOf project place = .ok node) : node.id = idOf project place ∧
      node.path = idOf project place ∧ node.children = [] ∧ node.importers = [] ∧
        ∃ role : Role, node.kind = role.word := by
  rw [nodeOf] at made
  cases read : project.files.lenientText place.path with
  | error fault => simp [read, Except.bind] at made
  | ok content =>
    simp only [read, Except.bind] at made
    cases found : Resolution.targets project.files content (parent place.path) project.root
      project.settings with
    | error fault => simp [found, Except.map] at made
    | ok imports =>
      simp only [found, Except.map, Except.ok.injEq] at made
      rw [← made]
      exact ⟨rfl, rfl, rfl, rfl, _, rfl⟩

/-- Visiting files takes one graph to another: every file is listed, and its node is registered
unless there is none or it has no name. -/
inductive Visits (project : Project) : List Place → Graph Text → Graph Text → Prop
  | done {graph : Graph Text} : Visits project [] graph graph
  | leftOut {place : Place} {places : List Place} {graph raw : Graph Text} {fault : FileFault}
    (unmade : nodeOf project place = .error fault)
    (further : Visits project places (graph.meet (idOf project place)) raw) :
    Visits project (place :: places) graph raw
  | unnamed {place : Place} {places : List Place} {graph raw : Graph Text} {node : Node Text}
    (made : nodeOf project place = .ok node) (unnamed : node.name.isEmpty)
    (further : Visits project places (graph.meet (idOf project place)) raw) :
    Visits project (place :: places) graph raw
  | registered {place : Place} {places : List Place} {graph next raw : Graph Text} {node : Node Text}
    (made : nodeOf project place = .ok node) (named : ¬ node.name.isEmpty)
    (added : (graph.meet (idOf project place)).register? node = some next)
    (further : Visits project places next raw) : Visits project (place :: places) graph raw

section
variable {project : Project} {policy : ReadPolicy} {places : List Place} {graph raw : Graph Text}

theorem visits_of_visit (visited : (visit project policy places graph).graph = .ok raw) :
    Visits project places graph raw := by
  induction places generalizing graph with
  | nil =>
    rw [visit, Except.ok.injEq] at visited
    rw [visited]
    exact .done
  | cons place places ih =>
    simp only [visit] at visited
    split at visited
    · rename_i unmade
      split at visited
      · simp [failed] at visited
      · exact .leftOut unmade (ih visited)
    · rename_i node made
      split at visited
      · rename_i unnamed
        exact .unnamed made unnamed (ih visited)
      · rename_i named
        split at visited
        · rename_i next added
          exact .registered made named added (ih visited)
        · simp [failed] at visited

/-- Visiting files lists them all, and registers and counts some. -/
theorem Visits.gathered {ids : List Text} (visits : Visits project places graph raw)
    (before : Gathered ids graph) : Gathered (ids ++ places.map (idOf project)) raw := by
  induction visits generalizing ids with
  | done => simpa using before
  | @leftOut place _ _ _ _ _ _ ih =>
    simpa using ih (gathered_meet before (idOf project place))
  | @unnamed place _ _ _ _ _ _ _ ih =>
    simpa using ih (gathered_meet before (idOf project place))
  | @registered place _ _ _ _ _ made _ added _ ih =>
    have met := gathered_meet before (idOf project place)
    obtain ⟨sameId, samePath, childless, _, role, kind⟩ := nodeOf_eq_ok made
    have listed := gathered_register met (samePath.trans sameId.symm) (by simp [sameId]) childless
      kind added
    simpa using ih listed

end

/-! ## Scans that return a graph -/

/-- What a scan has done when it returns a graph. -/
structure Returns (files : FileSystem) (word : Text) (scope : Discovery.Scope) (root : Text)
    (graph raw : Graph Text) : Prop where
  walked : gathered files word scope root = some raw
  completed : graph = completed raw
  gathered : Gathered (discovered files scope root) raw
  named : ∀ id ∈ discovered files scope root, ∃ names, names ≠ [] ∧ AreNames names ∧ id = ofNames names
  distinct : (discovered files scope root).Nodup

theorem gathered_empty (title root : Text) : Gathered [] (Graph.ofDirectory title root) :=
  ⟨rfl, by simp [Graph.ofDirectory], rfl⟩

section
variable {files : FileSystem} {word : Text} {scope : Discovery.Scope} {root : Text}
  {graph : Graph Text}

/-- A scan that returns a graph does so at the real path of a directory. -/
theorem ofPath_eq_ok {policy : ReadPolicy}
    (scanned : (ofPath files policy scope root).graph = .ok graph) :
    ∃ real, files.target? (clean root) = .ok (some .directory) ∧
      files.realPath (clean root) = .ok real ∧
      (ofRealRoot files policy scope real).graph = .ok graph := by
  rw [ofPath] at scanned
  split at scanned
  · simp [failed] at scanned
  · simp [failed] at scanned
  · rename_i leads
    split at scanned
    · simp [failed] at scanned
    · rename_i real found
      exact ⟨real, leads, found, scanned⟩
  · simp [failed] at scanned

theorem ofWord_eq_ok (scanned : (ofWord files word scope root).graph = .ok graph) :
    ∃ policy real, ReadPolicy.ofWord? word = some policy ∧
      files.target? (clean root) = .ok (some .directory) ∧
      files.realPath (clean root) = .ok real ∧
      (ofRealRoot files policy scope real).graph = .ok graph := by
  rw [ofWord] at scanned
  split at scanned
  · rename_i policy named
    obtain ⟨real, leads, found, returned⟩ := ofPath_eq_ok scanned
    exact ⟨policy, real, named, leads, found, returned⟩
  · simp [failed] at scanned

/-- A scan that returns a graph has found settings, and has walked and visited all there is. -/
theorem ofRealRoot_eq_ok {policy : ReadPolicy}
    (scanned : (ofRealRoot files policy scope root).graph = .ok graph) :
    ∃ settings notices raw, Configuration.load files root = .ok (settings, notices) ∧
      (Discovery.sourceFiles files scope root).fault = none ∧
      (visit { files, root, settings } policy (Discovery.sourceFiles files scope root).files
        (Graph.ofDirectory (name root) root)).graph = .ok raw ∧
      graph = completed raw := by
  rw [ofRealRoot] at scanned
  split at scanned
  · simp [failed] at scanned
  · rename_i settings notices loaded
    simp only [conclude] at scanned
    split at scanned
    · rename_i fault stopped
      rw [stopped] at scanned
      simp at scanned
    · simp at scanned
    · rename_i raw visited whole
      exact ⟨settings, notices, raw, loaded, whole, visited, (Except.ok.inj scanned).symm⟩

theorem returns_of_scanned (scanned : (ofWord files word scope root).graph = .ok graph) :
    ∃ raw, Returns files word scope root graph raw := by
  obtain ⟨policy, real, named, leads, found, returned⟩ := ofWord_eq_ok scanned
  obtain ⟨settings, notices, raw, loaded, _, visited, rfl⟩ := ofRealRoot_eq_ok returned
  obtain ⟨base, proper, atRoot⟩ := FileSystem.realPath_eq_path leads found
  have same : discovered files scope root =
      (Discovery.sourceFiles files scope real).files.map
        (idOf { files, root := real, settings }) := by
    rw [discovered, found]
    rfl
  have ids := ids_of_sourceFiles files scope proper { files, root := real, settings } atRoot
  refine ⟨raw, ?_, rfl, ?_, same ▸ ids.1, same ▸ ids.2⟩
  · rw [Scan.gathered, named, found]
    simp [loaded, visited, Except.toOption]
  · have run := (visits_of_visit visited).gathered (gathered_empty (name real) real)
    rw [List.nil_append] at run
    exact same ▸ run

/-- A scan returns the graph of what it has gathered if it finds a directory and walks all of it. -/
theorem graph_of_gathered {real : Text} {raw : Graph Text}
    (leads : files.target? (clean root) = .ok (some .directory))
    (found : files.realPath (clean root) = .ok real)
    (whole : (Discovery.sourceFiles files scope real).fault = none)
    (walked : gathered files word scope root = some raw) :
    (ofWord files word scope root).graph = .ok (completed raw) := by
  rw [gathered, found] at walked
  split at walked
  · rename_i policy place named same
    cases same
    split at walked
    · rename_i settings notices loaded
      rw [ofWord, named]
      simp only [ofPath, leads, found, ofRealRoot, loaded, conclude, whole]
      cases visited : (visit { files, root := real, settings } policy
        (Discovery.sourceFiles files scope real).files (Graph.ofDirectory (name real) real)).graph with
      | error fault => simp [visited, Except.toOption] at walked
      | ok graph =>
        simp only [visited, Except.toOption, Option.some.injEq] at walked
        rw [walked]
    · simp at walked
  · simp at walked

end

end ModuleAtlas.Scan
