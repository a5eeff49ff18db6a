import ModuleAtlas.Proofs.Graph.Drawing
import ModuleAtlas.Proofs.Graph.Importers
import ModuleAtlas.Proofs.Graph.Registration
import ModuleAtlas.Proofs.Graph.Tree
/-!
What a drawing with imports tells of a graph of source files. Every registered file has one label,
and below it stand its imports and then its importers. Read back, each with the file that it stands
below, the imports that are marked as missing are the dangling ones, the others are the edges, and the
importers are the edges backwards (`Tells`, `tells_of_calls`). The tree is drawn from copies of the
registered nodes and the importers from the registry itself, so the drawing, the tree and the
importers have to agree on what a file is called.
-/
namespace ModuleAtlas

/-- A node of a source file as it is registered: it has a role and no children, its id is its path, a
relative one, and what its drawing shows is written in lines that can be told apart. -/
structure Node.IsSourceFile (node : Node Text) : Prop where
  childless : node.children = []
  role : ∃ role : Role, node.kind = role.word
  named : node.id = node.path
  relative : ¬ Path.isAbsolute node.path
  oneLine : .scalar '\n' ∉ node.path ∧ ∀ target ∈ node.imports, .scalar '\n' ∉ target
  unmarked : ∀ target ∈ node.imports, ¬ Text.endsWith target " [MISSING]"

namespace Graph
open ModuleAtlas.Path

/-! ## Reading what is said below a label -/

/-- The target of an import that is marked as missing. -/
def missing? (note : Text) : Option Text :=
  (Text.dropHead? "-> " note).bind fun target =>
    if Text.endsWith target " [MISSING]" then some (Text.dropTail target " [MISSING]") else none

/-- The target of an import that is not marked. -/
def found? (note : Text) : Option Text :=
  (Text.dropHead? "-> " note).bind fun target =>
    if Text.endsWith target " [MISSING]" then none else some target

/-- The source of an import of the file. -/
def importer? (note : Text) : Option Text := Text.dropHead? "<- " note

/-- What is read off the lines below the labels, each with the id of the file that it stands below. -/
def told (graph : Graph Text) (read : Text → Option Text) : List (Text × Text) :=
  graph.drawn.flatMap fun place =>
    ((graph.notes true place.node).filterMap read).map (place.node.id, ·)

section
variable {graph : Graph Text}

theorem read_importer (source : Text) :
    missing? (("<- " : Text) ++ source) = none ∧ found? (("<- " : Text) ++ source) = none ∧
      importer? (("<- " : Text) ++ source) = some source := by
  refine ⟨rfl, rfl, Text.dropHead?_eq_some_iff.2 rfl⟩

theorem read_import {target : Text} (unmarked : ¬ Text.endsWith target " [MISSING]") :
    missing? (graph.importText target) = (if graph.nodes.contains target then none else some target) ∧
      found? (graph.importText target) = (if graph.nodes.contains target then some target else none) ∧
      importer? (graph.importText target) = none := by
  have opens : ∀ rest : Text, Text.dropHead? ("-> " : Text) (("-> " : Text) ++ rest) = some rest :=
    fun rest => Text.dropHead?_eq_some_iff.2 rfl
  have marked : Text.endsWith (target ++ (" [MISSING]" : Text)) " [MISSING]" :=
    List.isSuffixOf_iff_suffix.2 (List.suffix_append _ _)
  rw [importText, List.append_assoc, missing?, found?, opens, Option.bind_some, Option.bind_some]
  refine ⟨?_, ?_, rfl⟩
  · split
    · rw [List.append_nil]
      exact if_neg unmarked
    · exact (if_pos marked).trans (congrArg some (Text.dropTail_append _ _))
  · split
    · rw [List.append_nil]
      exact if_neg unmarked
    · exact if_pos marked

/-- What is read off the lines below a file: some of its imports, and something of its importers. -/
theorem filterMap_links {node : Node Text} {read : Text → Option Text} (kept : Text → Bool)
    (heard : Text → Option Text) (imports : ∀ target ∈ node.imports,
      read (graph.importText target) = if kept target then some target else none)
    (importers : ∀ source, read (("<- " : Text) ++ source) = heard source) :
    (graph.links node).filterMap read =
      node.imports.filter kept ++ (graph.importersOf node.id).filterMap heard := by
  rw [links, List.filterMap_append, List.filterMap_map, List.filterMap_map,
    ← List.filterMap_eq_filter]
  congr 1
  · exact List.filterMap_congr imports
  · exact List.filterMap_congr fun source _ => importers source

section
variable {node : Node Text}
  (unmarked : ∀ target ∈ node.imports, ¬ Text.endsWith target " [MISSING]")
include unmarked

theorem filterMap_missing : (graph.links node).filterMap missing? =
    node.imports.filter fun target => !graph.nodes.contains target := by
  rw [filterMap_links (fun target => !graph.nodes.contains target) (fun _ => none)
    (fun target inside => ?_) fun source => (read_importer source).1]
  · simp
  · rw [(read_import (unmarked target inside)).1]
    cases graph.nodes.contains target <;> rfl

theorem filterMap_found : (graph.links node).filterMap found? =
    node.imports.filter graph.nodes.contains := by
  rw [filterMap_links graph.nodes.contains (fun _ => none)
    (fun target inside => (read_import (unmarked target inside)).2.1)
    fun source => (read_importer source).2.1]
  simp

theorem filterMap_importer : (graph.links node).filterMap importer? = graph.importersOf node.id := by
  rw [filterMap_links (fun _ => false) some
    (fun target inside => (read_import (unmarked target inside)).2.2)
    fun source => (read_importer source).2.2]
  simp

end

end

/-! ## The nodes that are drawn -/

end Graph

namespace Node

mutual

/-- Where nothing but directories has children, everything is drawn that stands in a tree. -/
theorem map_node_drawn (around : List Bool) (isLast : Bool) (parent : Text) : (node : Node Text) →
    (∀ entry ∈ placed parent node, ¬ entry.2.isDirectory → entry.2.children = []) →
    (drawn around isLast node).map Drawn.node = (placed parent node).map Prod.snd
  | ⟨id, name, path, kind, several, imports, importers, children⟩, flat => by
    rw [placed] at flat ⊢
    obtain ⟨here, later⟩ := List.forall_mem_cons.1 flat
    rw [drawn, List.map_cons, List.map_cons]
    congr 1
    split
    · exact map_node_drawnAll (around ++ [isLast]) path children later
    · rename_i file
      have none : children = [] := here file
      rw [none]
      rfl

theorem map_node_drawnAll (around : List Bool) (parent : Text) : (nodes : List (Node Text)) →
    (∀ entry ∈ placedAll parent nodes, ¬ entry.2.isDirectory → entry.2.children = []) →
    (drawnAll around nodes).map Drawn.node = (placedAll parent nodes).map Prod.snd
  | [], _ => rfl
  | node :: nodes, flat => by
    rw [placedAll] at flat ⊢
    obtain ⟨here, later⟩ := List.forall_mem_append.1 flat
    rw [drawnAll, List.map_append, List.map_append,
      map_node_drawn around nodes.isEmpty parent node here, map_node_drawnAll around parent nodes later]

end

end Node

namespace Graph
open ModuleAtlas.Path

/-- What is registered are source files, under their own ids. -/
def OfSources (graph : Graph Text) : Prop :=
  ∀ entry ∈ graph.nodes.entries, entry.1 = entry.2.id ∧ entry.2.IsSourceFile

theorem not_isDirectory_of_source {node : Node Text} (source : node.IsSourceFile) :
    ¬ node.isDirectory := by
  obtain ⟨role, known⟩ := source.role
  rw [Node.isDirectory, Label.isText, known]
  cases role <;> decide

section
variable {graph : Graph Text} (sources : graph.OfSources)
include sources

theorem isSourceFile_of_mem {node : Node Text} (registered : node ∈ graph.nodes.values) :
    node.IsSourceFile := by
  obtain ⟨entry, inside, rfl⟩ := List.mem_map.1 registered
  exact (sources entry inside).2

theorem isFlat_of_sources : graph.IsFlat := fun _ registered =>
  (isSourceFile_of_mem sources registered).childless

/-- What stands in the tree is a registered file, or a directory with something in it. -/
theorem placed_cases {entry : Text × Node Text} (stands : entry ∈ graph.withTree.placed) :
    (entry.2 ∈ graph.nodes.values ∧ entry.2.children = [] ∧ ¬ entry.2.isDirectory) ∨
      (∃ d ∈ graph.directories, entry.2 = graph.directoryAt d ∧ entry.2.children ≠ [] ∧
        entry.2.isDirectory) := by
  have flat := isFlat_of_sources sources
  obtain ⟨above, kind⟩ := mem_placedBelow flat isAbsolute_nil entry stands
  rcases kind with file | ⟨d, inside, same⟩
  · have registered := (mem_filesIn.1 file).1
    exact .inl ⟨registered, flat _ registered,
      not_isDirectory_of_source (isSourceFile_of_mem sources registered)⟩
  · have known := (mem_subdirectories.1 inside).1
    refine .inr ⟨d, known, same, ?_, ?_⟩
    · rw [same, children_directoryAt]
      exact contents_ne_nil (relative_of_mem_subdirectories above inside) known
    · rw [same]
      rfl

/-- All that stands in the tree is drawn. -/
theorem map_node_drawn : graph.withTree.drawn.map Drawn.node = graph.withTree.placed.map Prod.snd := by
  refine Node.map_node_drawnAll [] [] _ fun entry stands file => ?_
  rcases placed_cases sources stands with ⟨-, none, -⟩ | ⟨-, -, -, -, directory⟩
  · exact none
  · exact absurd directory file

theorem map_node_filter_drawn (kept : Node Text → Bool) :
    (graph.withTree.drawn.filter fun place => kept place.node).map Drawn.node =
      (graph.withTree.placed.filter fun entry => kept entry.2).map Prod.snd := by
  have kinds := congrArg (List.filter kept) (map_node_drawn sources)
  rwa [List.filter_map, List.filter_map] at kinds

theorem drawn_directories :
    (graph.withTree.drawn.filter fun place => place.node.isDirectory).map Drawn.node =
      (directoriesAmong graph.withTree.placed).map Prod.snd := by
  rw [map_node_filter_drawn sources, directoriesAmong]
  congr 1
  apply List.filter_congr
  intro entry stands
  rcases placed_cases sources stands with ⟨-, none, file⟩ | ⟨-, -, -, some, directory⟩
  · simp [none, file]
  · simp [some, directory]

/-- Every registered file is drawn once. -/
theorem drawn_files_perm :
    ((graph.withTree.drawn.filter fun place => !place.node.isDirectory).map Drawn.node).Perm
      graph.nodes.values := by
  have files : (graph.withTree.placed.filter fun entry => !entry.2.isDirectory) =
      filesAmong graph.withTree.placed := by
    apply List.filter_congr
    intro entry stands
    rcases placed_cases sources stands with ⟨-, none, file⟩ | ⟨-, -, -, some, directory⟩
    · simp [none, file]
    · simp [some, directory]
  have relative : (graph.nodes.values.filter fun node => !isAbsolute node.path) =
      graph.nodes.values := by
    apply List.filter_eq_self.2
    intro node registered
    simpa using (isSourceFile_of_mem sources registered).relative
  have placed := (filesAmong_perm (isFlat_of_sources sources)).map Prod.snd
  rw [map_node_filter_drawn sources (fun node => !node.isDirectory), files]
  rwa [relative, List.map_map, List.map_id''] at placed
  exact fun _ => rfl

/-- What is collected from the files that are drawn is collected from the registered ones. -/
theorem flatMap_drawn_perm {β : Type} {f : Node Text → List β}
    (nothing : ∀ node : Node Text, node.isDirectory → f node = []) :
    (graph.withTree.drawn.flatMap fun place => f place.node).Perm (graph.nodes.values.flatMap f) := by
  have files : ∀ places : List Drawn, (places.flatMap fun place => f place.node) =
      ((places.filter fun place => !place.node.isDirectory).map Drawn.node).flatMap f := by
    intro places
    induction places with
    | nil => rfl
    | cons place places ih =>
      rw [List.flatMap_cons, ih]
      by_cases directory : place.node.isDirectory
      · simp [directory, nothing]
      · simp [directory]
  rw [files]
  exact (drawn_files_perm sources).flatMap_right f

theorem isOneLine_of_drawn {place : Drawn} (drawn : place ∈ graph.withTree.drawn) :
    place.node.IsOneLine := by
  have listed : place.node ∈ graph.withTree.placed.map Prod.snd :=
    map_node_drawn sources ▸ List.mem_map_of_mem drawn
  obtain ⟨entry, stands, same⟩ := List.mem_map.1 listed
  rw [← same, Node.IsOneLine]
  rcases placed_cases sources stands with ⟨registered, -, file⟩ | ⟨d, known, at_, -, directory⟩
  · rw [if_neg file]
    exact fun inside => (isSourceFile_of_mem sources registered).oneLine.1 (basename_subset _ inside)
  · rw [if_pos directory, at_]
    obtain ⟨node, registered, ancestor⟩ := (mem_directories graph).1 known
    have source := isSourceFile_of_mem sources registered
    obtain ⟨-, n, reached⟩ := (mem_ancestors source.relative).1 ancestor
    intro inside
    apply source.oneLine.1
    apply (iterate_dirname_opens (n + 1) node.path).subset
    rw [reached]
    exact basename_subset d inside

/-! ## Edges, dangling imports and importers -/

/-- What is read off the lines below the files that are drawn is read off what the registered files
have to say. -/
theorem told_perm (read : Text → Option Text) : (graph.withTree.told read).Perm
    (graph.nodes.values.flatMap fun node =>
      ((graph.links node).filterMap read).map (node.id, ·)) := by
  have nothing : ∀ node : Node Text, node.isDirectory →
      ((graph.notes true node).filterMap read).map (node.id, ·) = [] := by
    intro node directory
    simp [notes, directory]
  refine (flatMap_drawn_perm sources nothing).trans (List.Perm.of_eq ?_)
  apply List.flatMap_congr
  intro node registered
  have file := not_isDirectory_of_source (isSourceFile_of_mem sources registered)
  simp [notes, file]

/-- The imports of a kind are those of the registered files, each with the id of its file. -/
theorem filter_imports_perm (kept : Text → Bool) :
    (graph.imports.filter fun edge => kept edge.2).Perm
      (graph.nodes.values.flatMap fun node => (node.imports.filter kept).map (node.id, ·)) := by
  have entries : importsIn graph.nodes.entries =
      graph.nodes.values.flatMap fun node => node.imports.map (node.id, ·) := by
    rw [importsIn, Table.values, List.flatMap_map]
    apply List.flatMap_congr
    rintro ⟨key, node⟩ inside
    obtain rfl : key = node.id := (sources _ inside).1
    rfl
  have moved : graph.imports.Perm (importsIn graph.nodes.entries) :=
    graph.sorted_perm.flatMap_right _
  rw [entries] at moved
  refine (moved.filter _).trans (List.Perm.of_eq ?_)
  rw [List.filter_flatMap]
  apply List.flatMap_congr
  intro node _
  rw [List.filter_map]
  rfl

theorem told_missing_perm : (graph.withTree.told missing?).Perm graph.dangling := by
  refine (told_perm sources missing?).trans (List.Perm.trans (List.Perm.of_eq ?_)
    (filter_imports_perm sources fun target => !graph.nodes.contains target).symm)
  apply List.flatMap_congr
  intro node registered
  rw [filterMap_missing (isSourceFile_of_mem sources registered).unmarked]

theorem told_found_perm : (graph.withTree.told found?).Perm graph.edges := by
  refine (told_perm sources found?).trans (List.Perm.trans (List.Perm.of_eq ?_)
    (filter_imports_perm sources graph.nodes.contains).symm)
  apply List.flatMap_congr
  intro node registered
  rw [filterMap_found (isSourceFile_of_mem sources registered).unmarked]

theorem importersOf_of_mem {entry : Text × Node Text} (inside : entry ∈ graph.nodes.entries) :
    graph.importersOf entry.2.id = entry.2.importers := by
  have found : graph.nodes.get? entry.2.id = some entry.2 := by
    rw [← (sources entry inside).1]
    exact Table.get?_eq_some_iff.2 inside
  rw [importersOf, found]

/-- The importers that the registered files know are the edges that they tell, backwards. -/
theorem importers_eq : (graph.nodes.values.flatMap fun node =>
    (graph.importersOf node.id).map (node.id, ·)) = graph.toldEdges.map Prod.swap := by
  rw [toldEdges, Table.values, List.flatMap_map, List.map_flatMap]
  apply List.flatMap_congr
  rintro ⟨key, node⟩ inside
  obtain rfl : key = node.id := (sources _ inside).1
  rw [importersOf_of_mem sources inside, List.map_map]
  rfl

section
variable (reversed : graph.toldEdges.Perm graph.edges)
include reversed

theorem told_importer_perm : (graph.withTree.told importer?).Perm (graph.edges.map Prod.swap) := by
  have heard : (graph.nodes.values.flatMap fun node =>
      ((graph.links node).filterMap importer?).map (node.id, ·)) =
        graph.nodes.values.flatMap fun node => (graph.importersOf node.id).map (node.id, ·) := by
    apply List.flatMap_congr
    intro node registered
    rw [filterMap_importer (isSourceFile_of_mem sources registered).unmarked]
  refine (told_perm sources importer?).trans ?_
  rw [heard, importers_eq sources]
  exact reversed.map Prod.swap

/-- The importers of a registered file are ids of registered files. -/
theorem exists_source_of_importer {node : Node Text} (registered : node ∈ graph.nodes.values)
    {source : Text} (listed : source ∈ node.importers) :
    ∃ other ∈ graph.nodes.values, other.id = source := by
  obtain ⟨entry, inside, rfl⟩ := List.mem_map.1 registered
  have told : (source, entry.1) ∈ graph.toldEdges :=
    List.mem_flatMap.2 ⟨entry, inside, List.mem_map_of_mem listed⟩
  have imported := (List.mem_filter.1 (reversed.mem_iff.1 told)).1
  obtain ⟨importing, sorted, own⟩ := List.mem_flatMap.1 imported
  obtain ⟨target, -, same⟩ := List.mem_map.1 own
  have held := graph.sorted_perm.mem_iff.1 sorted
  refine ⟨importing.2, List.mem_map_of_mem held, ?_⟩
  rw [← (sources importing held).1]
  exact congrArg Prod.fst same

theorem oneLine_importers {node : Node Text} (registered : node ∈ graph.nodes.values) :
    ∀ source ∈ node.importers, .scalar '\n' ∉ source := by
  intro source listed
  obtain ⟨other, known, rfl⟩ := exists_source_of_importer sources reversed registered listed
  have source := isSourceFile_of_mem sources known
  rw [source.named]
  exact source.oneLine.1

end

/-! ## Lines -/

theorem registered_of_drawn {place : Drawn} (drawn : place ∈ graph.withTree.drawn)
    (file : ¬ place.node.isDirectory) : place.node ∈ graph.nodes.values := by
  apply (drawn_files_perm sources).mem_iff.1
  exact List.mem_map_of_mem (List.mem_filter.2 ⟨drawn, by simpa using file⟩)

/-- What is said below a file that is drawn are its imports and its importers. -/
theorem notes_of_drawn {place : Drawn} (drawn : place ∈ graph.withTree.drawn)
    (file : ¬ place.node.isDirectory) : graph.withTree.notes true place.node =
      place.node.imports.map graph.importText ++ place.node.importers.map (("<- " : Text) ++ ·) := by
  obtain ⟨entry, inside, same⟩ := List.mem_map.1 (registered_of_drawn sources drawn file)
  have known := importersOf_of_mem sources inside
  rw [same] at known
  have all : graph.withTree.notes true place.node = graph.links place.node :=
    if_neg (by simpa using file)
  rw [all, links, known]
  rfl

theorem oneLine_notes (reversed : graph.toldEdges.Perm graph.edges) {place : Drawn}
    (drawn : place ∈ graph.withTree.drawn) :
    ∀ text ∈ graph.withTree.notes true place.node, .scalar '\n' ∉ text := by
  intro text said
  by_cases directory : place.node.isDirectory
  · simp [notes, directory] at said
  have registered := registered_of_drawn sources drawn directory
  rw [notes_of_drawn sources drawn directory] at said
  rcases List.mem_append.1 said with imported | importing
  · obtain ⟨target, listed, rfl⟩ := List.mem_map.1 imported
    have oneLine := (isSourceFile_of_mem sources registered).oneLine.2 target listed
    have remark : .scalar '\n' ∉
        (if graph.nodes.contains target then [] else (" [MISSING]" : Text) : Text) := by
      split <;> decide
    rw [importText, List.mem_append, List.mem_append]
    rintro ((arrow | inside) | inside)
    · exact absurd arrow (by decide)
    · exact oneLine inside
    · exact remark inside
  · obtain ⟨source, listed, rfl⟩ := List.mem_map.1 importing
    rw [List.mem_append]
    rintro (arrow | inside)
    · exact absurd arrow (by decide)
    · exact oneLine_importers sources reversed registered source listed inside

/-- Below the labels there are as many lines as there are imports and edges. -/
theorem length_notes (reversed : graph.toldEdges.Perm graph.edges) :
    (graph.withTree.drawn.flatMap fun place => graph.withTree.notes true place.node).length =
      (graph.nodes.values.flatMap Node.imports).length + graph.edges.length := by
  have importers : (graph.nodes.values.flatMap fun node => graph.importersOf node.id).length =
      graph.edges.length := by
    rw [← reversed.length_eq, ← List.length_map Prod.swap, ← importers_eq sources]
    simp
  have files : (graph.withTree.drawn.flatMap fun place => graph.withTree.notes true place.node).Perm
      (graph.nodes.values.flatMap (graph.notes true)) :=
    flatMap_drawn_perm sources fun node directory => by simp [notes, directory]
  have said : ∀ nodes : List (Node Text), (∀ node ∈ nodes, ¬ node.isDirectory) →
      (nodes.flatMap (graph.notes true)).length = (nodes.flatMap Node.imports).length +
        (nodes.flatMap fun node => graph.importersOf node.id).length := by
    intro nodes
    induction nodes with
    | nil => simp
    | cons node nodes ih =>
      intro all
      obtain ⟨file, others⟩ := List.forall_mem_cons.1 all
      have own : (graph.notes true node).length =
          node.imports.length + (graph.importersOf node.id).length := by
        simp [notes, file, links]
      simp only [List.flatMap_cons, List.length_append, ih others, own]
      omega
  rw [files.length_eq, ← importers]
  exact said _ fun node registered =>
    not_isDirectory_of_source (isSourceFile_of_mem sources registered)

theorem length_drawn : graph.withTree.drawn.length =
    graph.nodes.size + (directoriesAmong graph.withTree.placed).length := by
  have files := (drawn_files_perm sources).length_eq
  have directories := congrArg List.length (drawn_directories sources)
  rw [List.length_map] at files
  rw [List.length_map, List.length_map] at directories
  rw [List.length_eq_length_filter_add fun place : Drawn => place.node.isDirectory, files, directories,
    Table.size, Table.values, List.length_map, Nat.add_comm]

end

/-! ## The whole drawing -/

/-- What a drawing with imports tells of its graph. -/
structure Tells (graph : Graph Text) (strokes : Strokes) : Prop where
  /-- The drawing is the lines of what is drawn: a label, and what is said below it. -/
  lines : Text.splitOn '\n' (graph.drawing strokes true) =
    (graph.lines true).map (Line.inStyle strokes)
  /-- Every registered file has one label. -/
  files : ((graph.drawn.filter fun place => !place.node.isDirectory).map Drawn.node).Perm
    graph.nodes.values
  /-- The other labels are those of the directories, in the order of the tree. -/
  directories : (graph.drawn.filter fun place => place.node.isDirectory).map Drawn.node =
    (directoriesAmong graph.placed).map Prod.snd
  /-- Below the label of a file stand its imports and then its importers, both in order. -/
  below : ∀ place ∈ graph.drawn, graph.notes true place.node =
    if place.node.isDirectory then [] else
      (place.node.imports.map fun target =>
        "-> " ++ target ++ (if graph.nodes.contains target then [] else " [MISSING]" : Text)) ++
      place.node.importers.map (("<- " : Text) ++ ·)
  missing : (graph.told missing?).Perm graph.dangling
  found : (graph.told found?).Perm graph.edges
  importers : (graph.told importer?).Perm (graph.edges.map Prod.swap)
  count : (Text.splitOn '\n' (graph.drawing strokes true)).length =
    1 + graph.nodes.size + (directoriesAmong graph.placed).length +
      (graph.nodes.values.flatMap Node.imports).length + graph.edges.length + 5

theorem tells_withTree {graph : Graph Text} {strokes : Strokes} (clear : strokes.AreClear)
    (root : .scalar '\n' ∉ graph.root.name) (sources : graph.OfSources)
    (reversed : graph.toldEdges.Perm graph.edges) : Tells graph.withTree strokes := by
  have lines : Text.splitOn '\n' (graph.withTree.drawing strokes true) =
      (graph.withTree.lines true).map (Line.inStyle strokes) := by
    apply splitOn_drawing_of_oneLine graph.withTree clear true
    exact oneLine_lines root (fun place drawn => isOneLine_of_drawn sources drawn)
      fun place drawn => oneLine_notes sources reversed drawn
  refine ⟨lines, drawn_files_perm sources, drawn_directories sources, fun place drawn => ?_,
    told_missing_perm sources, told_found_perm sources, told_importer_perm sources reversed, ?_⟩
  · split
    · rename_i directory
      simp [notes, directory]
    · rename_i file
      exact notes_of_drawn sources drawn file
  · rw [lines, List.length_map, length_lines, length_notes sources reversed, length_drawn sources]
    have edges : graph.withTree.edges = graph.edges := rfl
    have nodes : graph.withTree.nodes = graph.nodes := rfl
    rw [edges, nodes]
    omega

/-! ## Graphs that calls have filled -/

theorem filled_fill (name path : Text) (calls : List Call) :
    Filled (ofDirectory name path : Graph Text).root calls
      ((ofDirectory name path : Graph Text).fill calls) := by
  induction calls using List.reverseRecOn with
  | nil => exact filled_empty name path
  | append_singleton calls call ih =>
    rw [fill_append]
    exact ih.step call

theorem mem_of_mem_firsts {node : Node Text} {nodes : List (Node Text)} (first : node ∈ firsts nodes) :
    node ∈ nodes := by
  induction nodes with
  | nil => exact first
  | cons other nodes ih =>
    rcases List.mem_cons.1 first with rfl | kept
    · exact List.mem_cons_self
    · exact List.mem_cons_of_mem _ (ih (List.mem_filter.1 kept).1)

/-- Source files stay what they are when they get to know their importers. -/
theorem ofSources_withImporters {root : Node Text} {calls : List Call} {graph : Graph Text}
    (filled : Filled root calls graph) (sources : ∀ node ∈ nodesOf calls, node.IsSourceFile) :
    graph.withImporters.OfSources := by
  intro entry inside
  obtain ⟨before, registered, rfl⟩ := List.mem_map.1 inside
  rw [filled.entries] at registered
  obtain ⟨node, first, rfl⟩ := List.mem_map.1 registered
  have source := sources node (mem_of_mem_firsts first)
  exact ⟨rfl, source.childless, source.role, source.named, source.relative, source.oneLine,
    source.unmarked⟩

/-- A graph is filled by any calls that bring source files, gets to know the importers of all files,
and gets its tree. Then its drawing with imports tells, in every style, exactly its files, its edges
in both directions and its dangling imports. -/
theorem tells_of_calls (name path : Text) (oneLine : .scalar '\n' ∉ name) (calls : List Call)
    (sources : ∀ node ∈ nodesOf calls, node.IsSourceFile) : ∀ strokes ∈ Strokes.styles,
      Tells ((ofDirectory name path : Graph Text).fill calls).withImporters.withTree strokes := by
  intro strokes known
  have filled := filled_fill name path calls
  apply tells_withTree (Strokes.areClear_of_mem known) _ (ofSources_withImporters filled sources)
  · rw [edges_withImporters]
    exact toldEdges_perm _
  · show .scalar '\n' ∉ ((ofDirectory name path : Graph Text).fill calls).root.name
    rw [filled.root]
    exact oneLine

/-- Three files and one of them again. One imports itself, another file twice and a file that is not
there, and a file is called like an import. -/
def entangled : List Call :=
  [.meet "src/a.js",
   .register { id := "src/a.js", name := "a", path := "src/a.js", kind := "component", several := true
               imports := ["b.js", "x.js", "src/a.js", "b.js"] },
   .register { id := "b.js", name := "b", path := "b.js", kind := "util" },
   .register { id := "b.js", name := "c", path := "b.js", kind := "state", imports := ["y.js"] },
   .register { id := "-> b.js", name := "-> b", path := "-> b.js", kind := "state"
               imports := ["b.js", "-> b.js"] }]

theorem entangled_told : .scalar '\n' ∉ ("app" : Text) ∧
    (∀ node ∈ nodesOf entangled, node.IsSourceFile) ∧
    Tells ((ofDirectory "app" "/work/app" : Graph Text).fill entangled).withImporters.withTree .box := by
  have oneLine : .scalar '\n' ∉ ("app" : Text) := by decide
  have sources : ∀ node ∈ nodesOf entangled, node.IsSourceFile := by
    have each : ∀ node ∈ nodesOf entangled, node.children.isEmpty ∧
        node.kind ∈ [Role.component, .state, .utility].map Role.word ∧ node.id = node.path ∧
        ¬ isAbsolute node.path ∧
        (.scalar '\n' ∉ node.path ∧ ∀ target ∈ node.imports, .scalar '\n' ∉ target) ∧
        ∀ target ∈ node.imports, ¬ Text.endsWith target " [MISSING]" := by decide
    intro node inside
    obtain ⟨childless, role, named, relative, oneLine, unmarked⟩ := each node inside
    obtain ⟨role, -, same⟩ := List.mem_map.1 role
    exact ⟨List.isEmpty_iff.1 childless, ⟨role, same.symm⟩, named, relative, oneLine, unmarked⟩
  exact ⟨oneLine, sources, tells_of_calls "app" "/work/app" oneLine entangled sources .box
    List.mem_cons_self⟩

end Graph
end ModuleAtlas
