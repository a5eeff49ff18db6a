import ModuleAtlas.Proofs.Graph.Without
import ModuleAtlas.Proofs.Scan.Registered
import ModuleAtlas.Proofs.Scan.Settled
/-!
Two scans of one tree that differ in what can be read. What a walk finds and what imports mean does
not depend on what can be read (`walk_unrestricted`, `nodeOf_unrestricted`), so a file that cannot
be read any more takes nothing with it: the graph is that of the other scan without the file
(`unread_isolated`).
-/
namespace ModuleAtlas

/-! ## What does not depend on access -/

/-- The files with nothing that cannot be read or listed. -/
def FileSystem.unrestricted (files : FileSystem) : FileSystem :=
  { files with unreadable := [], unlistable := [] }

section
variable {files : FileSystem} {p : Text}

/-- A text that can be read is that of the file. -/
theorem FileSystem.lenientText_unrestricted {content : Text}
    (read : files.lenientText p = .ok content) : files.unrestricted.lenientText p = .ok content := by
  obtain ⟨bytes, there, rfl⟩ := map_eq_ok.1 read
  rw [FileSystem.bytes] at there
  split at there
  · cases there
  · exact map_eq_ok.2 ⟨bytes, there, rfl⟩

/-- The names that a directory lists are those of its entries. -/
theorem FileSystem.list_unrestricted {names : List Text} (listed : files.list p = .ok names) :
    files.unrestricted.list p = .ok names := by
  rw [FileSystem.list] at listed
  split at listed
  · cases listed
  · exact listed

end

theorem Resolution.firstFile?_unrestricted (files : FileSystem) (root : Text) (candidates : List Text) :
    firstFile? files.unrestricted root candidates = firstFile? files root candidates := by
  have checks : files.unrestricted.isFile = files.isFile := rfl
  induction candidates with
  | nil => rfl
  | cons p rest ih => rw [firstFile?, firstFile?, checks, ih]

/-- What imports mean is a matter of what there is. -/
theorem Resolution.targets_unrestricted (files : FileSystem) (content directory root : Text)
    (settings : Settings) :
    targets files.unrestricted content directory root settings =
      targets files content directory root settings := by
  simp only [targets, complete, firstFile?_unrestricted]
  rfl

namespace Discovery
variable {files : FileSystem} {scope : Scope}

theorem fault_foldr {found : List Found} :
    (found.foldr Found.andThen {}).fault = none ↔ ∀ first ∈ found, first.fault = none := by
  induction found with
  | nil => simp
  | cons first rest ih =>
    rw [List.foldr_cons, Found.andThen, List.forall_mem_cons, ← ih]
    cases ended : first.fault <;> simp [ended]

/-- An entry contributes the same if the directory that it may be does. -/
theorem entryFiles_congr {descend other : Place → Found}
    (same : ∀ place, (descend place).fault = none → other place = descend place)
    {directory : Place} {name : Text}
    (whole : (entryFiles descend files scope directory name).fault = none) :
    entryFiles other files.unrestricted scope directory name =
      entryFiles descend files scope directory name := by
  have checks : files.unrestricted.isDirectory = files.isDirectory ∧
      files.unrestricted.isFile = files.isFile ∧ files.unrestricted.isLink = files.isLink :=
    ⟨rfl, rfl, rfl⟩
  simp only [entryFiles, checks] at whole ⊢
  split
  · rfl
  · split
    · rfl
    · rename_i leads passed
      rw [leads] at whole
      simp only [passed] at whole
      exact same _ whole
  · rfl

/-- A walk that ends by itself finds what there is. -/
theorem walk_unrestricted {levels : Nat} {directory : Place}
    (whole : (walk files scope levels directory).fault = none) :
    walk files.unrestricted scope levels directory = walk files scope levels directory := by
  induction levels generalizing directory with
  | zero => rfl
  | succ levels ih =>
    rw [walk] at whole ⊢
    rw [walk]
    cases listed : files.list directory.path with
    | error fault =>
      rw [listed] at whole
      cases whole
    | ok names =>
      rw [listed] at whole
      rw [FileSystem.list_unrestricted listed]
      refine congrArg (List.foldr Found.andThen {}) (List.map_congr_left fun name inside => ?_)
      exact entryFiles_congr (fun place => ih) (fault_foldr.1 whole _ (List.mem_map_of_mem inside))

end Discovery

namespace Scan
open ModuleAtlas.Graph ModuleAtlas.Path

/-- The project with nothing that cannot be read or listed. -/
def Project.unrestricted (project : Project) : Project :=
  { project with files := project.files.unrestricted }

/-- The text of the file at a place cannot be read. -/
def isUnread (files : FileSystem) (place : Place) : Bool := !(files.lenientText place.path).isOk

variable {project : Project} {places : List Place}

/-- The node of a file whose text can be read. -/
theorem nodeOf_unrestricted {place : Place} (read : isUnread project.files place = false) :
    nodeOf project place = nodeOf project.unrestricted place := by
  rw [isUnread, Bool.not_eq_false'] at read
  cases there : project.files.lenientText place.path with
  | error fault =>
    rw [there] at read
    cases read
  | ok content =>
    have again : project.unrestricted.files.lenientText place.path = .ok content :=
      FileSystem.lenientText_unrestricted there
    have means := Resolution.targets_unrestricted project.files content (parent place.path)
      project.root project.settings
    rw [nodeOf, nodeOf, there, again]
    exact congrArg (Except.map _) means.symm

theorem nodeOf_of_isUnread {place : Place} (unread : isUnread project.files place) :
    (nodeOf project place).toOption = none := by
  cases there : project.files.lenientText place.path with
  | error fault =>
    rw [nodeOf, there]
    rfl
  | ok content =>
    rw [isUnread, there] at unread
    cases unread

/-! ## The registry that a scan leaves -/

/-- The entries of the registry that visiting files adds. -/
def entriesOf (project : Project) (places : List Place) : List (Text × Node Text) :=
  ((nodesOf project places).filter fun node => !node.name.isEmpty).map fun node => (node.id, node)

theorem entriesOf_cons (project : Project) (place : Place) (places : List Place) :
    entriesOf project (place :: places) = entriesOf project [place] ++ entriesOf project places := by
  simp only [entriesOf, nodesOf, ← List.map_append, ← List.filter_append]
  rw [← List.filterMap_append, List.singleton_append]

/-- Visiting files adds entries to the registry and leaves the root as it is. -/
theorem Visits.entries {graph raw : Graph Text} (visits : Visits project places graph raw) :
    raw.root = graph.root ∧ raw.nodes.entries = graph.nodes.entries ++ entriesOf project places := by
  induction visits with
  | done => exact ⟨rfl, (List.append_nil _).symm⟩
  | leftOut unmade _ ih =>
    obtain ⟨root, entries⟩ := ih
    refine ⟨root, entries.trans ?_⟩
    simp [entriesOf, nodesOf, unmade, Except.toOption, Graph.meet]
  | unnamed made unnamed _ ih =>
    obtain ⟨root, entries⟩ := ih
    refine ⟨root, entries.trans ?_⟩
    simp [entriesOf, nodesOf, made, Except.toOption, Graph.meet, unnamed]
  | registered made named added _ ih =>
    obtain ⟨root, entries⟩ := ih
    rw [register?] at added
    split at added
    · cases added
    · rename_i fresh
      cases added
      refine ⟨root, entries.trans ?_⟩
      rw [Table.entries_insert_of_not_contains _ _ fresh, List.append_assoc]
      simp [entriesOf, nodesOf, made, Except.toOption, Graph.meet, named]

theorem id_of_mem_entriesOf {entry : Text × Node Text} (inside : entry ∈ entriesOf project places) :
    ∃ place ∈ places, entry.1 = idOf project place := by
  obtain ⟨node, kept, rfl⟩ := List.mem_map.1 inside
  obtain ⟨place, among, made⟩ := List.mem_filterMap.1 (List.mem_filter.1 kept).1
  cases run : nodeOf project place with
  | error fault => simp [run, Except.toOption] at made
  | ok other =>
    rw [run] at made
    cases made
    exact ⟨place, among, (nodeOf_eq_ok run).1⟩

/-- The registry lacks exactly the files whose text cannot be read. -/
theorem entriesOf_eq_filter {out : List Text}
    (known : ∀ place ∈ places, idOf project place ∈ out ↔ isUnread project.files place) :
    entriesOf project places =
      (entriesOf project.unrestricted places).filter fun entry => !out.contains entry.1 := by
  induction places with
  | nil => rfl
  | cons place places ih =>
    obtain ⟨here, known⟩ := List.forall_mem_cons.1 known
    rw [entriesOf_cons, entriesOf_cons project.unrestricted, List.filter_append, ih known]
    congr 1
    have own : ∀ entry ∈ entriesOf project.unrestricted [place], entry.1 = idOf project place := by
      intro entry inside
      obtain ⟨other, among, same⟩ := id_of_mem_entriesOf inside
      rw [same, List.mem_singleton.1 among]
      rfl
    cases unread : isUnread project.files place with
    | true =>
      have nothing : entriesOf project [place] = [] := by
        simp [entriesOf, nodesOf, nodeOf_of_isUnread unread]
      rw [nothing, eq_comm, List.filter_eq_nil_iff]
      intro entry inside
      simpa [own entry inside] using here.2 unread
    | false =>
      have same : entriesOf project [place] = entriesOf project.unrestricted [place] := by
        simp only [entriesOf, nodesOf, List.filterMap_cons, List.filterMap_nil,
          nodeOf_unrestricted unread]
      rw [same, eq_comm, List.filter_eq_self]
      intro entry inside
      simpa [own entry inside, unread] using here

/-! ## Completing what is left -/

theorem gathered_restrict {ids : List Text} {raw : Graph Text} (before : Gathered ids raw)
    (kept : Text → Bool) : Gathered ids (raw.restrict kept) :=
  ⟨before.files, fun entry inside => before.registered entry (List.mem_filter.1 inside).1, rfl⟩

theorem map_withSlashes_of_plain {paths : List Text} (plain : ∀ p ∈ paths, .scalar '\\' ∉ p) :
    paths.map withSlashes = paths :=
  (List.map_congr_left fun p inside => withSlashes_eq_self (plain p inside)).trans (List.map_id _)

theorem withSlashes_restrict {kept : Text → Bool} {node : Node Text}
    (plain : ∀ importer ∈ node.importers, .scalar '\\' ∉ importer) :
    Node.withSlashes (node.restrict kept) = node.withSlashes.restrict kept := by
  have same : (node.importers.filter kept).map withSlashes =
      (node.importers.map withSlashes).filter kept := by
    rw [map_withSlashes_of_plain plain, map_withSlashes_of_plain]
    exact fun importer inside => plain importer (List.mem_filter.1 inside).1
  obtain ⟨id, name, path, kind, several, imports, importers, children⟩ := node
  simp only [Node.restrict, Node.withSlashes]
  exact congrArg (Node.mk _ _ _ _ _ _ · _) same

section
variable {ids : List Text} {raw : Graph Text} (before : Gathered ids raw)
  (plain : ∀ id ∈ ids, .scalar '\\' ∉ id)
include before plain

theorem plain_of_gathered : ∀ key ∈ raw.nodes.keys, .scalar '\\' ∉ key := by
  intro key inside
  obtain ⟨entry, held, rfl⟩ := List.mem_map.1 inside
  exact plain _ (before.registered entry held).2.2.1

theorem stayApart_of_gathered : StayApart raw.nodes.keys := by
  intro p inLeft q inRight meet
  have known := plain_of_gathered before plain
  rwa [withSlashes_eq_self (known p inLeft), withSlashes_eq_self (known q inRight)] at meet

/-- The nodes of the completed graph of the files that are left. -/
theorem nodes_completed_restrict (kept : Text → Bool) :
    (completed (raw.restrict kept)).nodes = ((completed raw).limited kept).nodes := by
  have known := plain_of_gathered before plain
  have all := entries_slashedImporters (stayApart_of_gathered before plain)
  have left := entries_slashedImporters
    (stayApart_of_gathered (gathered_restrict before kept) plain)
  rw [slashedImporters, ← nodes_completed] at all left
  apply Table.eq_of_entries
  rw [left, limited, Table.map, Table.entries_mapEntries, restrict, Table.entries_filter, restrict,
    Table.entries_filter, all, List.filter_map, List.map_map]
  have same : raw.nodes.entries.filter ((fun entry : Text × Node Text => kept entry.1) ∘ fun entry =>
      (withSlashes entry.1, Node.withSlashes
        { entry.2 with importers := sourcesOf raw.imports entry.1 })) =
      raw.nodes.entries.filter fun entry => kept entry.1 := by
    refine List.filter_congr fun entry inside => ?_
    rw [Function.comp_apply, withSlashes_eq_self (known _ (List.mem_map_of_mem inside))]
  rw [same]
  refine List.map_congr_left fun entry _ => Prod.ext rfl ?_
  rw [← restrict, sourcesOf_restrict]
  exact @withSlashes_restrict kept { entry.2 with importers := sourcesOf raw.imports entry.1 }
    fun importer inside => known _ (mem_keys_of_mem_sourcesOf inside)

/-- Leaving files out first and completing what is left is completing everything and taking them out
afterwards. -/
theorem completed_restrict
    (named : ∀ id ∈ ids, ∃ names, names ≠ [] ∧ AreNames names ∧ id = ofNames names)
    (out : List Text) :
    completed (raw.restrict fun id => !out.contains id) = (completed raw).without out := by
  let left := raw.restrict fun id => !out.contains id
  have still : Gathered ids left := gathered_restrict before _
  have known := plain_of_gathered still plain
  have settled : (completed left).IsTreeSettled :=
    (isTreeSettled_completed_iff still named).2 ⟨stays_of_plain known, keepOrder_of_plain known⟩
  -- The roots are compared through the root that they come from; the graphs themselves differ.
  have top : ∀ raw, { (completed raw).root with children := (completed left).forest } =
      { raw.root with path := withSlashes raw.root.path, children := (completed left).forest } :=
    fun _ => rfl
  have root : (completed left).root =
      { (completed raw).root with children := (completed left).forest } :=
    settled.symm.trans ((top left).trans (top raw).symm)
  have files : (completed left).files = (completed raw).files := by
    rw [files_completed, files_completed]
    rfl
  exact eq_without out (nodes_completed_restrict before plain _) root files
    ((stats_completed_iff still).2 (stayApart_of_gathered still plain))

end

/-! ## Two scans -/

/-- The ids of the source files of the project at a path whose text cannot be read, in the order of
the walk. -/
def unread (files : FileSystem) (scope : Discovery.Scope) (root : Text) : List Text :=
  match files.realPath (clean root) with
  | .ok real => ((Discovery.sourceFiles files scope real).files.filter (isUnread files)).map
      (idOf { files, root := real, settings := {} })
  | .error _ => []

/-- What a scan leaves before its graph is completed: from the entries that there are for all files,
those of the files whose text can be read. -/
structure LeavesReadable (files : FileSystem) (scope : Discovery.Scope) (root real : Text)
    (settings : Settings) (raw : Graph Text) : Prop where
  gathered : Gathered (discovered files scope root) raw
  named : ∀ id ∈ discovered files scope root, ∃ names, names ≠ [] ∧ AreNames names ∧ id = ofNames names
  found : discovered files scope root = discovered files.unrestricted scope root
  top : raw.root = (ofDirectory (name real) real : Graph Text).root
  entries : raw.nodes.entries = (entriesOf { files := files.unrestricted, root := real, settings }
    (Discovery.sourceFiles files.unrestricted scope real).files).filter fun entry =>
      !(unread files scope root).contains entry.1

section
variable {files others : FileSystem} {scope : Discovery.Scope} {root real : Text}
  {settings : Settings} {notices told : List Notice} {graph other : Graph Text}

theorem leavesReadable_of_scanned {word : Text} (found : files.realPath (clean root) = .ok real)
    (loaded : Configuration.load files real = .ok (settings, notices))
    (scanned : (ofWord files word scope root).graph = .ok graph) :
    ∃ raw, graph = completed raw ∧ LeavesReadable files scope root real settings raw := by
  obtain ⟨raw, returned⟩ := returns_of_scanned scanned
  obtain ⟨policy, place, known, leads, same, again⟩ := ofWord_eq_ok scanned
  cases found.symm.trans same
  obtain ⟨_, _, other, reloaded, whole, visited, _⟩ := ofRealRoot_eq_ok again
  cases loaded.symm.trans reloaded
  have one : raw = other := by
    have walked := returned.walked
    rw [Scan.gathered, known, found] at walked
    simpa [loaded, visited, Except.toOption] using walked.symm
  subst one
  have finds : Discovery.sourceFiles files.unrestricted scope real =
      Discovery.sourceFiles files scope real := Discovery.walk_unrestricted whole
  obtain ⟨base, proper, atRoot⟩ := FileSystem.realPath_eq_path leads found
  have distinct := (ids_of_sourceFiles files scope proper
    { files, root := real, settings } atRoot).2
  obtain ⟨top, entries⟩ := (visits_of_visit visited).entries
  refine ⟨raw, returned.completed, returned.gathered, returned.named, ?_, top, ?_⟩
  · have unchanged : files.unrestricted.realPath (clean root) = .ok real := found
    rw [discovered, found, discovered, unchanged]
    dsimp only
    rw [finds]
    rfl
  · have none : (ofDirectory (name real) real : Graph Text).nodes.entries = [] := rfl
    rw [none, List.nil_append] at entries
    rw [entries, finds]
    refine @entriesOf_eq_filter { files, root := real, settings } _ _ fun place inside => ?_
    rw [unread, found, List.mem_map]
    constructor
    · rintro ⟨twin, kept, meet⟩
      obtain ⟨among, unread⟩ := List.mem_filter.1 kept
      rwa [← List.inj_on_of_nodup_map distinct among inside meet]
    · exact fun unread => ⟨place, List.mem_filter.2 ⟨inside, unread⟩, rfl⟩

/-- Two scans of the same files that leave out what cannot be read, both of which end with a graph
and go by the same settings. If what cannot be read in the one cannot be read in the other, the graph
of the other is that of the one without the files that cannot be read in the other. -/
theorem unread_isolated (same : others.unrestricted = files.unrestricted)
    (found : files.realPath (clean root) = .ok real)
    (loaded : Configuration.load files real = .ok (settings, notices))
    (reloaded : Configuration.load others real = .ok (settings, told))
    (scanned : (ofWord files "skip" scope root).graph = .ok graph)
    (rescanned : (ofWord others "skip" scope root).graph = .ok other)
    (more : ∀ id ∈ unread files scope root, id ∈ unread others scope root)
    (plain : ∀ id ∈ discovered files scope root, .scalar '\\' ∉ id) :
    other = graph.without (unread others scope root) := by
  have still : others.realPath (clean root) = .ok real :=
    (congrFun (congrArg FileSystem.realPath same) (clean root)).trans found
  obtain ⟨raw, rfl, here⟩ := leavesReadable_of_scanned found loaded scanned
  obtain ⟨rest, rfl, there⟩ := leavesReadable_of_scanned still reloaded rescanned
  have ids : discovered others scope root = discovered files scope root := by
    rw [here.found, there.found, same]
  have nodes : rest.nodes = raw.nodes.filter fun id => !(unread others scope root).contains id := by
    apply Table.eq_of_entries
    rw [Table.entries_filter, here.entries, there.entries, same, List.filter_filter]
    refine List.filter_congr fun entry _ => ?_
    by_cases out : entry.1 ∈ unread others scope root
    · simp [out]
    · have read : entry.1 ∉ unread files scope root := fun inside => out (more _ inside)
      simp [out, read]
  have left : rest = raw.restrict fun id => !(unread others scope root).contains id := by
    have top := there.top.trans here.top.symm
    have listed := (there.gathered.files.trans ids).trans here.gathered.files.symm
    have counted := there.gathered.counted
    rw [nodes] at counted
    obtain ⟨_, _, _, _⟩ := rest
    rw [restrict, Graph.mk.injEq]
    exact ⟨top, nodes, listed, counted⟩
  rw [left, completed_restrict here.gathered plain here.named]

end

/-- A source text that imports another one. -/
def importingText : Text := "import b from './b'"

/-- A project with this source text and the one it imports. -/
def importing : FileSystem where
  tree :=
    { entries := [(["p"], .directory), (["p", "a.js"], .file (Text.utf8 importingText)),
        (["p", "b.js"], .file [])]
      distinct := by decide
      named := by decide
      housed := by decide }

/-- The same project when the imported file cannot be read. -/
def halfRead : FileSystem := { importing with unreadable := ["/p/b.js"] }

/-- The nodes of the two files. -/
def importingNode : Node Text :=
  { id := "a.js", name := "a", path := "a.js", kind := "util", imports := ["b.js"] }

def importedNode : Node Text := { id := "b.js", name := "b", path := "b.js", kind := "util" }

theorem nodeOf_importing :
    nodeOf { files := importing, root := "/p", settings := {} } ["p", "a.js"] = .ok importingNode ∧
      nodeOf { files := importing, root := "/p", settings := {} } ["p", "b.js"] =
        .ok importedNode := by
  have content : importing.lenientText (Place.path ["p", "a.js"]) = .ok importingText :=
    lenientText_of_bytes rfl (by decide +kernel) (by decide +kernel)
  have means : Resolution.targets importing importingText (parent (Place.path ["p", "a.js"])) "/p" {} =
      .ok ["b.js"] := by decide +kernel
  have role : Source.classify importingText (name (Place.path ["p", "a.js"]))
      (idOf { files := importing, root := "/p", settings := {} } ["p", "a.js"]) =
        (.utility, false) := by decide +kernel
  have nothing : importing.lenientText (Place.path ["p", "b.js"]) = .ok [] :=
    lenientText_of_empty rfl
  constructor
  · simp only [nodeOf, content, Except.bind, role, means, Except.map]
    rfl
  · simp only [nodeOf, nothing, Except.bind]
    rfl

/-- What the scans of the two projects have gathered. -/
def importingRaw : Graph Text :=
  { ofDirectory "p" "/p" with
    nodes := Table.ofList [("a.js", importingNode), ("b.js", importedNode)]
    files := ["a.js", "b.js"], stats := { nodes := 2, utilities := 2 } }

def halfReadRaw : Graph Text :=
  { ofDirectory "p" "/p" with
    nodes := Table.ofList [("a.js", importingNode)]
    files := ["a.js", "b.js"], stats := { nodes := 1, utilities := 1 } }

theorem sourceFiles_importing :
    Discovery.sourceFiles importing {} "/p" = ⟨[["p", "a.js"], ["p", "b.js"]], none⟩ := by
  have listed : importing.list (Place.path ["p"]) = .ok ["a.js", "b.js"] :=
    FileSystem.list_of_located rfl rfl rfl (by decide)
  show Discovery.walk importing {} 4 ["p"] = _
  rw [Discovery.walk, listed]
  rfl

theorem sourceFiles_halfRead :
    Discovery.sourceFiles halfRead {} "/p" = ⟨[["p", "a.js"], ["p", "b.js"]], none⟩ := by
  have listed : halfRead.list (Place.path ["p"]) = .ok ["a.js", "b.js"] :=
    FileSystem.list_of_located rfl rfl rfl (by decide)
  show Discovery.walk halfRead {} 4 ["p"] = _
  rw [Discovery.walk, listed]
  rfl

theorem gathered_importing : gathered importing "skip" {} "/p" = some importingRaw := by
  have real : importing.realPath (clean "/p") = .ok "/p" := rfl
  have settings : Configuration.load importing "/p" = .ok ({}, []) := rfl
  have policy : ReadPolicy.ofWord? "skip" = some .skip := rfl
  rw [gathered, policy, real]
  simp only [settings, sourceFiles_importing, visit, nodeOf_importing]
  rfl

theorem gathered_halfRead : gathered halfRead "skip" {} "/p" = some halfReadRaw := by
  have real : halfRead.realPath (clean "/p") = .ok "/p" := rfl
  have settings : Configuration.load halfRead "/p" = .ok ({}, []) := rfl
  have policy : ReadPolicy.ofWord? "skip" = some .skip := rfl
  have read : isUnread halfRead ["p", "a.js"] = false := by decide +kernel
  have one : nodeOf { files := halfRead, root := "/p", settings := {} } ["p", "a.js"] =
      .ok importingNode :=
    (nodeOf_unrestricted read).trans nodeOf_importing.1
  have none : halfRead.lenientText (Place.path ["p", "b.js"]) = .error ⟨.denied, "/p/b.js"⟩ := rfl
  have other : nodeOf { files := halfRead, root := "/p", settings := {} } ["p", "b.js"] =
      .error ⟨.denied, "/p/b.js"⟩ := by
    rw [nodeOf, none]
    rfl
  rw [gathered, policy, real]
  simp only [settings, sourceFiles_halfRead, visit, one, other]
  rfl

/-- The file that cannot be read is gone from the registry, and the one that imports it is not. -/
theorem halfRead_isolated : ∃ graph other, (ofWord importing "skip" {} "/p").graph = .ok graph ∧
    (ofWord halfRead "skip" {} "/p").graph = .ok other ∧ other = graph.without ["b.js"] ∧
    graph.importersOf "b.js" = [("a.js" : Text)] ∧ other.nodes.keys = [("a.js" : Text)] := by
  have whole : (Discovery.sourceFiles importing {} "/p").fault = none := by
    rw [sourceFiles_importing]
  have still : (Discovery.sourceFiles halfRead {} "/p").fault = none := by
    rw [sourceFiles_halfRead]
  have scanned := graph_of_gathered rfl rfl whole gathered_importing
  have rescanned := graph_of_gathered rfl rfl still gathered_halfRead
  have real : importing.realPath (clean "/p") = .ok "/p" := rfl
  have again : halfRead.realPath (clean "/p") = .ok "/p" := rfl
  have out : unread halfRead {} "/p" = [("b.js" : Text)] := by
    simp only [unread, again, sourceFiles_halfRead]
    decide +kernel
  have before : unread importing {} "/p" = [] := by
    simp only [unread, real, sourceFiles_importing]
    decide +kernel
  have ids : discovered importing {} "/p" = [("a.js" : Text), "b.js"] := by
    simp only [discovered, real, sourceFiles_importing]
    decide +kernel
  have same : halfRead.unrestricted = importing.unrestricted := rfl
  have loaded : Configuration.load importing "/p" = .ok ({}, []) := rfl
  have reloaded : Configuration.load halfRead "/p" = .ok ({}, []) := rfl
  have left := unread_isolated same real loaded reloaded scanned rescanned
    (by rw [before]; exact fun _ inside => absurd inside List.not_mem_nil) (by rw [ids]; decide)
  have order : importingRaw.sorted = importingRaw.nodes.entries :=
    List.mergeSort_of_pairwise (by decide)
  have importers : (completed importingRaw).importersOf "b.js" = [("a.js" : Text)] := by
    show (sourcesOf importingRaw.imports "b.js").map withSlashes = _
    rw [Graph.imports, order]
    rfl
  rw [out] at left
  exact ⟨_, _, scanned, rescanned, left, importers, rfl⟩

end Scan
end ModuleAtlas
