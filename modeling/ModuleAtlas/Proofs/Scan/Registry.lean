import ModuleAtlas.Proofs.Graph.Slash
import ModuleAtlas.Proofs.Scan.Gathered
/-!
The registry that a scan returns. Its keys are the ids and paths of its nodes, and all are listed.
Whether a listed file can appear twice and whether a counted node can be lost depends on the
backslashes in the names of files: it cannot exactly if no two files have paths that become one
when backslashes become slashes (`registry_whole_iff`).
-/
namespace ModuleAtlas
open ModuleAtlas.Path

namespace Graph
variable {raw : Graph Text}

/-- The counts are those of the registry with slashes exactly if its keys stay apart. -/
theorem recount_withSlashes_iff :
    Stats.recount raw.withSlashes.nodes.values = Stats.recount raw.nodes.values ↔
      StayApart raw.nodes.keys := by
  constructor
  · intro same
    rw [← size_withSlashes_iff]
    have lengths := congrArg Stats.nodes same
    simp only [Stats.recount, Table.values, List.length_map] at lengths
    rw [Table.size, Table.size]
    omega
  · intro apart
    have values : raw.withSlashes.nodes.values = raw.nodes.values.map Node.withSlashes := by
      rw [Table.values, entries_withSlashes apart, slashedEntries, Table.values]
      simp
    rw [values]
    exact Stats.recount_map (fun node => ⟨node.kind_withSlashes, node.several_withSlashes⟩) _

end Graph

namespace Scan
open ModuleAtlas.Graph
variable {ids : List Text} {raw : Graph Text}

/-- Importers change nothing of what has been gathered. -/
theorem gathered_withImporters (before : Gathered ids raw) : Gathered ids raw.withImporters := by
  refine ⟨before.files, ?_, ?_⟩
  · intro entry inside
    obtain ⟨old, held, rfl⟩ := List.mem_map.1 inside
    exact before.registered old held
  · have values : raw.withImporters.nodes.values = raw.nodes.entries.map fun entry =>
        { entry.2 with importers := sourcesOf raw.imports entry.1 } := by
      simp [Table.values, withImporters, withImportersFrom]
    rw [values]
    show raw.stats = _
    rw [before.counted, Stats.recount, Stats.recount]
    simp [Table.values, List.countP_map, Function.comp_def, Stats.hasRole]

theorem nodes_completed : (completed raw).nodes = raw.withImporters.withSlashes.nodes := rfl

theorem files_completed : (completed raw).files = raw.files.map withSlashes := rfl

theorem stats_completed : (completed raw).stats = raw.stats := rfl

/-- The keys of a completed registry are ids and paths of its nodes, and listed files. -/
theorem registered_completed (before : Gathered ids raw) :
    ∀ entry ∈ (completed raw).nodes.entries, entry.2.id = entry.1 ∧ entry.2.path = entry.1 ∧
      entry.1 ∈ (completed raw).files := by
  intro entry inside
  rw [nodes_completed, nodes_withSlashes] at inside
  obtain ⟨old, held, rfl⟩ := List.mem_map.1 (Table.mem_of_mem_ofList inside)
  obtain ⟨sameId, samePath, listed, _⟩ := (gathered_withImporters before).registered old held
  refine ⟨?_, ?_, ?_⟩
  · rw [Node.id_withSlashes, sameId]
  · rw [Node.path_withSlashes, samePath]
  · rw [files_completed, before.files]
    exact List.mem_map_of_mem listed

theorem stats_completed_iff (before : Gathered ids raw) :
    (completed raw).stats = Stats.recount (completed raw).nodes.values ↔
      StayApart raw.nodes.keys := by
  have same := (gathered_withImporters before).counted
  rw [stats_completed, nodes_completed, ← keys_withImporters, ← recount_withSlashes_iff, ← same]
  exact eq_comm

/-- The graph of a scan. Its keys are ids and paths and are listed, and its counts of roles sum up.
No file is listed twice, and the counts are those of the registry, exactly if no two of the files
that were found have paths that become one when backslashes become slashes. -/
theorem registry_whole_iff {files : FileSystem} {word root : Text} {scope : Discovery.Scope}
    {graph : Graph Text} (scanned : (ofWord files word scope root).graph = .ok graph) :
    (discovered files scope root).Nodup ∧
    graph.files = (discovered files scope root).map withSlashes ∧
    (∀ entry ∈ graph.nodes.entries,
      entry.2.id = entry.1 ∧ entry.2.path = entry.1 ∧ entry.1 ∈ graph.files) ∧
    graph.stats.components + graph.stats.states + graph.stats.utilities = graph.stats.nodes ∧
    (graph.files.Nodup ∧ graph.stats = Stats.recount graph.nodes.values ↔
      StayApart (discovered files scope root)) ∧
    ∃ raw, gathered files word scope root = some raw ∧
      (graph.stats = Stats.recount graph.nodes.values ↔ StayApart raw.nodes.keys) := by
  obtain ⟨raw, walked, rfl, before, _, distinct⟩ := returns_of_scanned scanned
  have listed : (completed raw).files = (discovered files scope root).map withSlashes := by
    rw [files_completed, before.files]
  have counts := stats_completed_iff before
  refine ⟨distinct, listed, registered_completed before, ?_, ?_, raw, walked, counts⟩
  · rw [stats_completed, before.counted]
    apply Stats.recount_sum
    intro node inside
    obtain ⟨entry, held, rfl⟩ := List.mem_map.1 inside
    exact (before.registered entry held).2.2.2.2
  · rw [counts, listed, List.nodup_map_iff_inj_on distinct]
    constructor
    · exact fun both => both.1
    · intro apart
      refine ⟨apart, ?_⟩
      intro p inLeft q inRight
      have known : ∀ key ∈ raw.nodes.keys, key ∈ discovered files scope root := by
        intro key inside
        obtain ⟨entry, held, rfl⟩ := List.mem_map.1 inside
        exact (before.registered entry held).2.2.1
      exact apart p (known p inLeft) q (known q inRight)

/-- Two files: one in a directory, and one whose name is the path of the first with a backslash. -/
def twins : FileSystem where
  tree := (FileTree.empty.addAlong ["p", "a", "b.js"] (.file [])).addAlong ["p", "a\\b.js"] (.file [])

theorem sourceFiles_twins : Discovery.sourceFiles twins {} "/p" =
    ⟨[["p", "a", "b.js"], ["p", "a\\b.js"]], none⟩ := by
  have inner : twins.list (Place.path ["p", "a"]) = .ok ["b.js"] :=
    FileSystem.list_of_located rfl rfl rfl (by decide)
  have outer : twins.list (Place.path ["p"]) = .ok ["a", "a\\b.js"] :=
    FileSystem.list_of_located rfl rfl rfl (by decide)
  have deep : Discovery.walk twins {} 4 ["p", "a"] = ⟨[["p", "a", "b.js"]], none⟩ := by
    rw [Discovery.walk, inner]
    rfl
  have first : Discovery.entryFiles (Discovery.walk twins {} 4) twins {} ["p"] "a" =
      Discovery.walk twins {} 4 ["p", "a"] := rfl
  show Discovery.walk twins {} 5 ["p"] = _
  rw [Discovery.walk, outer]
  simp only [List.map_cons, first, deep]
  rfl

theorem discovered_twins : discovered twins {} "/p" = ["a/b.js", "a\\b.js"] := by
  have real : twins.realPath (clean "/p") = .ok "/p" := rfl
  rw [discovered, real]
  simp only [sourceFiles_twins]
  rfl

theorem lenientText_of_empty {files : FileSystem} {p : Text} (empty : files.bytes p = .ok []) :
    files.lenientText p = .ok [] := by
  have nothing : Text.decodeReplacing [] = [] := by simp [Text.decodeReplacing, Text.units]
  simp only [FileSystem.lenientText, empty, Except.map, nothing]
  rfl

theorem gathered_twins : ∃ raw, gathered twins "skip" {} "/p" = some raw ∧
    raw.nodes.keys = (["a/b.js", "a\\b.js"] : List Text) := by
  have real : twins.realPath (clean "/p") = .ok "/p" := rfl
  have settings : Configuration.load twins "/p" = .ok ({}, []) := rfl
  have policy : ReadPolicy.ofWord? "skip" = some .skip := rfl
  have inner : twins.lenientText (Place.path ["p", "a", "b.js"]) = .ok [] :=
    lenientText_of_empty rfl
  have outer : twins.lenientText (Place.path ["p", "a\\b.js"]) = .ok [] :=
    lenientText_of_empty rfl
  rw [gathered, policy, real]
  simp only [settings, sourceFiles_twins, visit, nodeOf, inner, outer]
  refine ⟨_, rfl, ?_⟩
  rfl

theorem scanned_twins : ∃ graph, (ofWord twins "skip" {} "/p").graph = .ok graph := by
  obtain ⟨raw, walked, _⟩ := gathered_twins
  have whole : (Discovery.sourceFiles twins {} "/p").fault = none := by rw [sourceFiles_twins]
  exact ⟨_, graph_of_gathered rfl rfl whole walked⟩

/-- The two files are listed under one id, or one of them is lost. -/
theorem twins_not_whole : ∃ graph, (ofWord twins "skip" {} "/p").graph = .ok graph ∧
    ¬ (graph.files.Nodup ∧ graph.stats = Stats.recount graph.nodes.values) := by
  obtain ⟨graph, scanned⟩ := scanned_twins
  refine ⟨graph, scanned, ?_⟩
  rw [(registry_whole_iff scanned).2.2.2.2.1, discovered_twins]
  intro apart
  have same := apart "a/b.js" (by decide) "a\\b.js" (by decide) rfl
  simp at same

end Scan
end ModuleAtlas
