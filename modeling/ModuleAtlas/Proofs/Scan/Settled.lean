import ModuleAtlas.Proofs.Graph.SlashImporters
import ModuleAtlas.Proofs.Graph.SlashTree
import ModuleAtlas.Proofs.Scan.Registry
/-!
Whether the graph of a scan is settled: reading importers off its registry again, and building its
tree again, changes nothing. A scan does both before backslashes become slashes, so its graph is
settled exactly if slashes agree with what it has gathered (`settled_iff`). That is so wherever
paths and imports have no backslashes.
-/
namespace ModuleAtlas

namespace Graph
open ModuleAtlas.Path

/-- The importers of the nodes and the tree are those of the registry. -/
structure IsSettled (graph : Graph Text) : Prop where
  importers : graph.AreImportersSettled
  tree : graph.IsTreeSettled

/-- Slashes instead of backslashes change neither the directories of files nor what is imported,
and keep files in order. -/
structure SlashesAgree (graph : Graph Text) : Prop where
  stay : ∀ p ∈ graph.nodes.keys, Stays p
  siblings : KeepOrder graph.nodes.keys
  imports : graph.ImportsStayApart
  importers : graph.ImportersKeepOrder

variable {raw : Graph Text}

/-- Where no file has a backslash in its path, it is the imports only that matter. -/
theorem slashesAgree_iff_of_plain (plain : ∀ key ∈ raw.nodes.keys, .scalar '\\' ∉ key) :
    raw.SlashesAgree ↔ raw.ImportsStayApart := by
  have same : ∀ p ∈ raw.nodes.keys, Path.withSlashes p = p :=
    fun p known => withSlashes_eq_self (plain p known)
  constructor
  · exact SlashesAgree.imports
  · intro apart
    refine ⟨stays_of_plain plain, keepOrder_of_plain plain, apart, ?_⟩
    intro _ _ left inLeft right inRight _ _ order
    rwa [same left.1 (List.mem_map_of_mem inLeft), same right.1 (List.mem_map_of_mem inRight)]

/-- Imports without backslashes stay apart from files without backslashes. -/
theorem importsStayApart_of_plain (plain : ∀ key ∈ raw.nodes.keys, .scalar '\\' ∉ key)
    (imports : ∀ entry ∈ raw.nodes.entries, ∀ p ∈ entry.2.imports, .scalar '\\' ∉ p) :
    raw.ImportsStayApart := by
  intro entry inside p imported q known meet
  rwa [withSlashes_eq_self (imports entry inside p imported),
    withSlashes_eq_self (plain q known)] at meet

end Graph

namespace Scan
open ModuleAtlas.Graph ModuleAtlas.Path
variable {ids : List Text} {raw : Graph Text}

theorem isKeyed_withImporters (before : Gathered ids raw)
    (named : ∀ id ∈ ids, ∃ names, names ≠ [] ∧ AreNames names ∧ id = ofNames names) :
    raw.withImporters.IsKeyed := by
  have registered := (gathered_withImporters before).registered
  refine ⟨?_, ?_, ?_⟩
  · intro entry inside
    exact ⟨(registered entry inside).1, (registered entry inside).2.1⟩
  · intro node inside
    obtain ⟨entry, held, rfl⟩ := List.mem_map.1 inside
    exact (registered entry held).2.2.2.1
  · intro key inside
    obtain ⟨entry, held, rfl⟩ := List.mem_map.1 inside
    exact named entry.1 (registered entry held).2.2.1

section
variable (before : Gathered ids raw)
  (named : ∀ id ∈ ids, ∃ names, names ≠ [] ∧ AreNames names ∧ id = ofNames names)
include before named

/-- The tree is settled where paths keep their directories and their order. -/
theorem isTreeSettled_completed_iff : (completed raw).IsTreeSettled ↔
    (∀ p ∈ raw.nodes.keys, Stays p) ∧ KeepOrder raw.nodes.keys := by
  rw [← keys_withImporters]
  exact settledTree_iff (isKeyed_withImporters before named)

theorem isSettled_completed_iff : (completed raw).IsSettled ↔ raw.SlashesAgree := by
  have keyed := isKeyed_withImporters before named
  have tree := isTreeSettled_completed_iff before named
  have importers : StayApart raw.nodes.keys → ((completed raw).AreImportersSettled ↔
      raw.ImportsStayApart ∧ raw.ImportersKeepOrder) := settledImporters_iff
  have apart : (∀ p ∈ raw.nodes.keys, Stays p) → StayApart raw.nodes.keys := by
    rw [← keys_withImporters]
    exact stayApart_of_stays keyed
  constructor
  · intro settled
    obtain ⟨stay, siblings⟩ := tree.1 settled.tree
    obtain ⟨meet, order⟩ := (importers (apart stay)).1 settled.importers
    exact ⟨stay, siblings, meet, order⟩
  · rintro ⟨stay, siblings, meet, order⟩
    exact ⟨(importers (apart stay)).2 ⟨meet, order⟩, tree.2 ⟨stay, siblings⟩⟩

end

/-- The graph of a scan is settled exactly if slashes agree with what the scan has gathered. They do
if there are no backslashes at all, and where there are none in the paths of files, it is the
imports that decide. In a settled graph importers and imports count the same; where files keep
different paths, it is again the imports that decide whether they do. -/
theorem settled_iff {files : FileSystem} {word root : Text} {scope : Discovery.Scope}
    {graph : Graph Text} (scanned : (ofWord files word scope root).graph = .ok graph) :
    ∃ raw, gathered files word scope root = some raw ∧ graph = completed raw ∧
      (graph.IsSettled ↔ raw.SlashesAgree) ∧
      ((∀ key ∈ raw.nodes.keys, .scalar '\\' ∉ key) → (raw.SlashesAgree ↔ raw.ImportsStayApart)) ∧
      ((∀ key ∈ raw.nodes.keys, .scalar '\\' ∉ key) →
        (∀ entry ∈ raw.nodes.entries, ∀ p ∈ entry.2.imports, .scalar '\\' ∉ p) → graph.IsSettled) ∧
      (graph.IsSettled → ∀ a b source target, graph.nodes.get? a = some source →
        graph.nodes.get? b = some target → target.importers.count a = source.imports.count b) ∧
      (StayApart raw.nodes.keys →
        ((∀ a b source target, graph.nodes.get? a = some source →
          graph.nodes.get? b = some target → target.importers.count a = source.imports.count b) ↔
            raw.ImportsStayApart)) := by
  obtain ⟨raw, walked, rfl, before, named, _⟩ := returns_of_scanned scanned
  have settled := isSettled_completed_iff before named
  refine ⟨raw, walked, rfl, settled, slashesAgree_iff_of_plain, ?_, ?_, ?_⟩
  · intro plain imports
    exact settled.2 ((slashesAgree_iff_of_plain plain).2 (importsStayApart_of_plain plain imports))
  · intro settled a b source target importing found
    exact count_of_settled settled.importers importing found
  · exact counts_slashedImporters_iff

/-- One of the two files leaves its directory, so their graph is not settled. -/
theorem twins_not_settled : ∃ graph, (ofWord twins "skip" {} "/p").graph = .ok graph ∧
    ¬ graph.IsSettled := by
  obtain ⟨graph, scanned⟩ := scanned_twins
  refine ⟨graph, scanned, ?_⟩
  obtain ⟨raw, walked, _, settled, _⟩ := settled_iff scanned
  rw [settled]
  intro agree
  obtain ⟨other, again, keys⟩ := gathered_twins
  rw [walked] at again
  cases again
  have stays := (agree.stay "a\\b.js" (by rw [keys]; decide)).2
  revert stays
  decide

end Scan
end ModuleAtlas
