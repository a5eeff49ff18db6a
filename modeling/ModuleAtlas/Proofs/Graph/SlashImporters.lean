import ModuleAtlas.Proofs.Graph.Slash
/-!
When the importers of a registry outlast slashes. Importers that were read off the imports before
backslashes became slashes are those of the new registry exactly if no import becomes an import of
a registered file that it was not, and files that import one file keep their order
(`settledImporters_iff`).
-/
namespace ModuleAtlas.Graph
open ModuleAtlas.Path (StayApart)

/-- A thing becomes no more frequent under a function exactly if nothing else becomes it. -/
theorem count_map_iff (f : Text → Text) (xs : List Text) (x : Text) :
    (xs.map f).count (f x) = xs.count x ↔ ∀ y ∈ xs, f y = f x → y = x := by
  induction xs with
  | nil => simp
  | cons y ys ih =>
    have fewer : ys.count x ≤ (ys.map f).count (f x) := List.count_le_count_map
    rw [List.map_cons, List.count_cons, List.count_cons, List.forall_mem_cons]
    by_cases same : y = x
    · simp [same, ih]
    · by_cases meet : f y = f x
      · simp only [same, meet, beq_self_eq_true, beq_iff_eq, ↓reduceIte, forall_const, false_and,
          iff_false]
        omega
      · simp [same, meet, ih]

/-! ## Importers that are those of the registry -/

/-- The importers of all nodes are those of the registry. -/
def AreImportersSettled (graph : Graph Text) : Prop := graph.withImporters.nodes = graph.nodes

theorem areImportersSettled_iff {graph : Graph Text} :
    graph.AreImportersSettled ↔
      ∀ entry ∈ graph.nodes.entries, entry.2.importers = sourcesOf graph.imports entry.1 := by
  constructor
  · intro settled entry inside
    have again : (entry.1, { entry.2 with importers := sourcesOf graph.imports entry.1 }) ∈
        graph.nodes.entries := by
      rw [← settled]
      exact List.mem_map_of_mem inside
    exact congrArg Node.importers (Table.value_unique inside again)
  · intro same
    apply Table.eq_of_entries
    show graph.nodes.entries.map _ = _
    conv_rhs => rw [← List.map_id graph.nodes.entries]
    apply List.map_congr_left
    intro entry inside
    show (entry.1, { entry.2 with importers := sourcesOf graph.imports entry.1 }) = entry
    rw [← same entry inside]
    obtain ⟨_, node⟩ := entry
    cases node
    rfl

/-- In a graph with settled importers a node has a file among its importers as often as this file
imports it. -/
theorem count_of_settled {graph : Graph Text} (settled : graph.AreImportersSettled)
    {a b : Text} {source target : Node Text} (importing : graph.nodes.get? a = some source)
    (found : graph.nodes.get? b = some target) :
    target.importers.count a = source.imports.count b := by
  rw [areImportersSettled_iff.1 settled (b, target) (Table.get?_eq_some_iff.1 found)]
  exact count_sourcesOf graph importing

/-! ## Importers with slashes -/

section
variable {raw : Graph Text}

/-- The graph with its importers, and then with slashes. -/
def slashedImporters (raw : Graph Text) : Graph Text := raw.withImporters.withSlashes

theorem entries_slashedImporters (apart : StayApart raw.nodes.keys) :
    raw.slashedImporters.nodes.entries = raw.nodes.entries.map fun entry =>
      (Path.withSlashes entry.1,
        Node.withSlashes { entry.2 with importers := sourcesOf raw.imports entry.1 }) := by
  have same : raw.slashedImporters.nodes.entries = raw.withImporters.slashedEntries :=
    entries_withSlashes (by rwa [keys_withImporters])
  rw [same, slashedEntries, withImporters, withImportersFrom, Table.entries_mapEntries,
    List.map_map]
  rfl

theorem keys_slashedImporters (apart : StayApart raw.nodes.keys) :
    raw.slashedImporters.nodes.keys = raw.nodes.keys.map Path.withSlashes := by
  rw [Table.keys, entries_slashedImporters apart, Table.keys, List.map_map, List.map_map]
  rfl

/-- A registered node is registered with slashes afterwards. -/
theorem get?_slashedImporters (apart : StayApart raw.nodes.keys) {entry : Text × Node Text}
    (inside : entry ∈ raw.nodes.entries) :
    raw.slashedImporters.nodes.get? (Path.withSlashes entry.1) =
      some (Node.withSlashes { entry.2 with importers := sourcesOf raw.imports entry.1 }) := by
  rw [Table.get?_eq_some_iff, entries_slashedImporters apart]
  exact List.mem_map_of_mem (f := fun entry : Text × Node Text => (Path.withSlashes entry.1,
    Node.withSlashes { entry.2 with importers := sourcesOf raw.imports entry.1 })) inside

theorem mem_keys_of_mem_sourcesOf {a b : Text} (listed : a ∈ sourcesOf raw.imports b) :
    a ∈ raw.nodes.keys := Table.contains_iff.1 (contains_of_mem_sourcesOf raw listed)

/-- How often a file with slashes imports a path with slashes. -/
theorem count_sourcesOf_slashed (apart : StayApart raw.nodes.keys) {entry : Text × Node Text}
    (inside : entry ∈ raw.nodes.entries) (b : Text) :
    (sourcesOf raw.slashedImporters.imports (Path.withSlashes b)).count (Path.withSlashes entry.1) =
      (entry.2.imports.map Path.withSlashes).count (Path.withSlashes b) := by
  rw [count_sourcesOf _ (get?_slashedImporters apart inside), Node.imports_withSlashes]

/-- How often a file was an importer before slashes. -/
theorem count_slashed_sourcesOf (apart : StayApart raw.nodes.keys) {entry : Text × Node Text}
    (inside : entry ∈ raw.nodes.entries) (b : Text) :
    ((sourcesOf raw.imports b).map Path.withSlashes).count (Path.withSlashes entry.1) =
      entry.2.imports.count b := by
  have known : ∀ y ∈ sourcesOf raw.imports b,
      Path.withSlashes y = Path.withSlashes entry.1 → y = entry.1 := by
    intro y listed
    exact apart y (mem_keys_of_mem_sourcesOf listed) entry.1 (List.mem_map_of_mem inside)
  rw [(count_map_iff Path.withSlashes _ entry.1).2 known]
  exact count_sourcesOf raw (Table.get?_eq_some_iff.2 inside)

theorem mem_sourcesOf {a b : Text} :
    a ∈ sourcesOf raw.imports b ↔ ∃ entry ∈ raw.nodes.entries, entry.1 = a ∧ b ∈ entry.2.imports := by
  constructor
  · intro listed
    obtain ⟨entry, inside, rfl⟩ := List.mem_map.1 (mem_keys_of_mem_sourcesOf listed)
    refine ⟨entry, inside, rfl, ?_⟩
    rw [← List.count_pos_iff, ← count_sourcesOf raw (Table.get?_eq_some_iff.2 inside)]
    exact List.count_pos_iff.2 listed
  · rintro ⟨entry, inside, rfl, imported⟩
    rw [← List.count_pos_iff, count_sourcesOf raw (Table.get?_eq_some_iff.2 inside)]
    exact List.count_pos_iff.2 imported

/-- An import of anything but a registered file does not become an import of this file when
backslashes become slashes. -/
def ImportsStayApart (graph : Graph Text) : Prop :=
  ∀ entry ∈ graph.nodes.entries, ∀ p ∈ entry.2.imports, ∀ q ∈ graph.nodes.keys,
    Path.withSlashes p = Path.withSlashes q → p = q

/-- Files that import one registered file keep their order when backslashes become slashes. -/
def ImportersKeepOrder (graph : Graph Text) : Prop :=
  ∀ q ∈ graph.nodes.keys, ∀ left ∈ graph.nodes.entries, ∀ right ∈ graph.nodes.entries,
    q ∈ left.2.imports → q ∈ right.2.imports → Text.le left.1 right.1 →
      Text.le (Path.withSlashes left.1) (Path.withSlashes right.1)

/-- The importers of one file outlast slashes exactly if they count the same and stay in order. -/
theorem sourcesOf_slashed_iff (apart : StayApart raw.nodes.keys) (b : Text) :
    (sourcesOf raw.imports b).map Path.withSlashes =
        sourcesOf raw.slashedImporters.imports (Path.withSlashes b) ↔
      (∀ entry ∈ raw.nodes.entries, ∀ p ∈ entry.2.imports,
        Path.withSlashes p = Path.withSlashes b → p = b) ∧
      ∀ x ∈ sourcesOf raw.imports b, ∀ y ∈ sourcesOf raw.imports b, Text.le x y →
        Text.le (Path.withSlashes x) (Path.withSlashes y) := by
  have sorted := sourcesOf_sorted raw.slashedImporters (Path.withSlashes b)
  constructor
  · intro same
    constructor
    · intro entry inside
      rw [← count_map_iff, ← count_sourcesOf_slashed apart inside, ← same,
        count_slashed_sourcesOf apart inside]
    · rw [← same, Text.Sorted, List.pairwise_map] at sorted
      exact Text.le_of_sorted (sourcesOf_sorted raw b) sorted fun x y => congrArg _
  · rintro ⟨counted, order⟩
    have before : Text.Sorted id ((sourcesOf raw.imports b).map Path.withSlashes) := by
      rw [Text.Sorted, List.pairwise_map]
      exact (sourcesOf_sorted raw b).imp_of_mem fun inLeft inRight => order _ inLeft _ inRight
    refine Text.eq_of_perm_of_sorted id (fun x _ y _ same => same) ?_ before sorted
    rw [List.perm_iff_count]
    intro t
    by_cases known : t ∈ raw.nodes.keys.map Path.withSlashes
    · obtain ⟨key, held, rfl⟩ := List.mem_map.1 known
      obtain ⟨entry, inside, rfl⟩ := List.mem_map.1 held
      rw [count_slashed_sourcesOf apart inside, count_sourcesOf_slashed apart inside, eq_comm,
        count_map_iff]
      exact counted entry inside
    · -- Only registered files are importers, before slashes and with them.
      rw [List.count_eq_zero.2, List.count_eq_zero.2]
      · intro listed
        rw [← keys_slashedImporters apart] at known
        exact known (mem_keys_of_mem_sourcesOf listed)
      · intro listed
        obtain ⟨x, old, rfl⟩ := List.mem_map.1 listed
        exact known (List.mem_map_of_mem (mem_keys_of_mem_sourcesOf old))

/-- Importers that were read off before backslashes became slashes are settled exactly if imports
stay apart from registered files and importers of one file keep their order. -/
theorem settledImporters_iff (apart : StayApart raw.nodes.keys) :
    raw.slashedImporters.AreImportersSettled ↔
      raw.ImportsStayApart ∧ raw.ImportersKeepOrder := by
  have each : raw.slashedImporters.AreImportersSettled ↔ ∀ b ∈ raw.nodes.keys,
      (sourcesOf raw.imports b).map Path.withSlashes =
        sourcesOf raw.slashedImporters.imports (Path.withSlashes b) := by
    rw [areImportersSettled_iff, entries_slashedImporters apart, List.forall_mem_map, Table.keys,
      List.forall_mem_map]
    simp only [Node.importers_withSlashes]
  rw [each]
  constructor
  · intro same
    constructor
    · intro entry inside p imported b known
      exact ((sourcesOf_slashed_iff apart b).1 (same b known)).1 entry inside p imported
    · intro b known left inLeft right inRight fromLeft fromRight
      exact ((sourcesOf_slashed_iff apart b).1 (same b known)).2
        left.1 (mem_sourcesOf.2 ⟨left, inLeft, rfl, fromLeft⟩)
        right.1 (mem_sourcesOf.2 ⟨right, inRight, rfl, fromRight⟩)
  · rintro ⟨counted, order⟩ b known
    refine (sourcesOf_slashed_iff apart b).2 ⟨?_, ?_⟩
    · intro entry inside p imported
      exact counted entry inside p imported b known
    · intro x inLeft y inRight
      obtain ⟨left, heldLeft, rfl, fromLeft⟩ := mem_sourcesOf.1 inLeft
      obtain ⟨right, heldRight, rfl, fromRight⟩ := mem_sourcesOf.1 inRight
      exact order b known left heldLeft right heldRight fromLeft fromRight

/-- Importers and imports count the same exactly if imports stay apart from registered files. -/
theorem counts_slashedImporters_iff (apart : StayApart raw.nodes.keys) :
    (∀ a b source target, raw.slashedImporters.nodes.get? a = some source →
      raw.slashedImporters.nodes.get? b = some target →
        target.importers.count a = source.imports.count b) ↔ raw.ImportsStayApart := by
  have counts : ∀ entry ∈ raw.nodes.entries, ∀ b,
      (((sourcesOf raw.imports b).map Path.withSlashes).count (Path.withSlashes entry.1) =
        (entry.2.imports.map Path.withSlashes).count (Path.withSlashes b) ↔
          ∀ p ∈ entry.2.imports, Path.withSlashes p = Path.withSlashes b → p = b) := by
    intro entry inside b
    rw [count_slashed_sourcesOf apart inside, eq_comm, count_map_iff]
  constructor
  · intro same entry inside p imported b known
    obtain ⟨target, held, rfl⟩ := List.mem_map.1 known
    have both := same _ _ _ _ (get?_slashedImporters apart inside) (get?_slashedImporters apart held)
    rw [Node.importers_withSlashes, Node.imports_withSlashes] at both
    exact (counts entry inside target.1).1 both p imported
  · intro meet a b source target importing found
    rw [Table.get?_eq_some_iff, entries_slashedImporters apart, List.mem_map] at importing found
    obtain ⟨entry, inside, here⟩ := importing
    obtain ⟨other, held, there⟩ := found
    obtain ⟨rfl, rfl⟩ := Prod.mk.inj here
    obtain ⟨rfl, rfl⟩ := Prod.mk.inj there
    rw [Node.importers_withSlashes, Node.imports_withSlashes]
    apply (counts entry inside other.1).2
    intro p imported
    exact meet entry inside p imported other.1 (List.mem_map_of_mem held)

end

end ModuleAtlas.Graph
