import ModuleAtlas.Proofs.Graph.Stats
/-!
Filling a graph. Files are met and nodes are registered in any order, and a node whose id is taken
is refused. However a graph has been filled, its registry holds of every id the node that came first,
in the order in which the ids came, and its counts are those of the registry (`Filled`); a call is
refused exactly if it brings an id again, and then nothing has changed (`filled_of_calls`).
-/
namespace ModuleAtlas.Graph

/-- A call that fills a graph. -/
inductive Call
  | meet (file : Text)
  | register (node : Node Text)

/-- The graph after a call, unless the call is refused. -/
def perform? (graph : Graph Text) : Call → Option (Graph Text)
  | .meet file => some (graph.meet file)
  | .register node => graph.register? node

/-- The graph after calls, one after the other. A call that is refused leaves it as it is. -/
def fill (graph : Graph Text) (calls : List Call) : Graph Text :=
  calls.foldl (fun graph call => (graph.perform? call).getD graph) graph

theorem fill_append (graph : Graph Text) (calls : List Call) (call : Call) :
    graph.fill (calls ++ [call]) = ((graph.fill calls).perform? call).getD (graph.fill calls) := by
  rw [fill, List.foldl_append]
  rfl

/-! ## What calls bring -/

/-- The files that are met in calls. -/
def filesOf (calls : List Call) : List Text :=
  calls.filterMap fun call => match call with
    | .meet file => some file
    | .register _ => none

/-- The nodes that calls bring. -/
def nodesOf (calls : List Call) : List (Node Text) :=
  calls.filterMap fun call => match call with
    | .meet _ => none
    | .register node => some node

/-- Of several nodes with one id the first. -/
def firsts : List (Node Text) → List (Node Text)
  | [] => []
  | node :: nodes => node :: (firsts nodes).filter (·.id ≠ node.id)

theorem mem_ids_firsts {nodes : List (Node Text)} {id : Text} :
    id ∈ (firsts nodes).map Node.id ↔ id ∈ nodes.map Node.id := by
  induction nodes with
  | nil => rfl
  | cons node nodes ih =>
    by_cases same : id = node.id
    · simp [firsts, same]
    · have kept : id ∈ ((firsts nodes).filter (·.id ≠ node.id)).map Node.id ↔
          id ∈ (firsts nodes).map Node.id := by
        simp only [List.mem_map, List.mem_filter, decide_eq_true_eq]
        constructor
        · rintro ⟨other, ⟨inside, -⟩, rfl⟩
          exact ⟨other, inside, rfl⟩
        · rintro ⟨other, inside, rfl⟩
          exact ⟨other, ⟨inside, same⟩, rfl⟩
      rw [firsts, List.map_cons, List.map_cons, List.mem_cons, List.mem_cons, kept, ih]

/-- A node is among the first ones if no node before it has its id. -/
theorem firsts_append (nodes : List (Node Text)) (node : Node Text) :
    firsts (nodes ++ [node]) =
      if node.id ∈ nodes.map Node.id then firsts nodes else firsts nodes ++ [node] := by
  induction nodes with
  | nil => rfl
  | cons first nodes ih =>
    rw [List.cons_append, firsts, ih, firsts]
    by_cases same : node.id = first.id
    · have taken : node.id ∈ (first :: nodes).map Node.id := by simp [same]
      rw [if_pos taken]
      split
      · rfl
      · simp [List.filter_append, same]
    · by_cases again : node.id ∈ nodes.map Node.id
      · rw [if_pos again, if_pos (by simp [again])]
      · rw [if_neg again, if_neg (by simpa [same] using again)]
        simp [List.filter_append, same]

/-! ## Filled graphs -/

/-- A graph that calls have filled, and nothing else. -/
structure Filled (root : Node Text) (calls : List Call) (graph : Graph Text) : Prop where
  root : graph.root = root
  files : graph.files = filesOf calls
  entries : graph.nodes.entries = (firsts (nodesOf calls)).map fun node => (node.id, node)
  counted : graph.stats = Stats.recount graph.nodes.values

section
variable {root node : Node Text} {calls : List Call} {graph next : Graph Text}

theorem filled_empty (name path : Text) :
    Filled (ofDirectory name path : Graph Text).root [] (ofDirectory name path) :=
  ⟨rfl, rfl, rfl, rfl⟩

theorem Filled.contains_iff (filled : Filled root calls graph) (id : Text) :
    graph.nodes.contains id ↔ id ∈ (nodesOf calls).map Node.id := by
  rw [Table.contains_iff, Table.keys, filled.entries, List.map_map, ← mem_ids_firsts]
  rfl

theorem Filled.meet (filled : Filled root calls graph) (file : Text) :
    Filled root (calls ++ [.meet file]) (graph.meet file) where
  root := filled.root
  files := by simp [Graph.meet, filled.files, filesOf]
  entries := by simp [Graph.meet, filled.entries, nodesOf]
  counted := filled.counted

theorem Filled.refused (filled : Filled root calls graph)
    (taken : node.id ∈ (nodesOf calls).map Node.id) :
    Filled root (calls ++ [.register node]) graph where
  root := filled.root
  files := by simp [filled.files, filesOf]
  entries := by
    have nodes : nodesOf (calls ++ [.register node]) = nodesOf calls ++ [node] := by simp [nodesOf]
    rw [filled.entries, nodes, firsts_append, if_pos taken]
  counted := filled.counted

theorem Filled.registered (filled : Filled root calls graph)
    (added : graph.register? node = some next) : Filled root (calls ++ [.register node]) next := by
  rw [register?] at added
  split at added
  · cases added
  rename_i fresh
  cases added
  have nodes : nodesOf (calls ++ [.register node]) = nodesOf calls ++ [node] := by simp [nodesOf]
  have entries := Table.entries_insert_of_not_contains graph.nodes node fresh
  rw [filled.contains_iff] at fresh
  refine ⟨filled.root, by simp [filled.files, filesOf], ?_, ?_⟩
  · rw [entries, nodes, firsts_append, if_neg fresh, filled.entries, List.map_append]
    rfl
  · have values : (graph.nodes.insert node.id node).values = graph.nodes.values ++ [node] := by
      rw [Table.values, entries, List.map_append]
      rfl
    rw [values, ← Stats.record_recount, ← filled.counted]

/-- Nothing but an id that has come before is refused. -/
theorem Filled.perform?_eq_none_iff (filled : Filled root calls graph) (call : Call) :
    graph.perform? call = none ↔
      ∃ node, call = .register node ∧ node.id ∈ (nodesOf calls).map Node.id := by
  cases call with
  | meet file => simp [perform?]
  | register node =>
    rw [perform?, register?]
    simp [← filled.contains_iff]

/-- A graph that has been filled is so after one more call. -/
theorem Filled.step (filled : Filled root calls graph) (call : Call) :
    Filled root (calls ++ [call]) ((graph.perform? call).getD graph) := by
  cases call with
  | meet file => exact filled.meet file
  | register node =>
    cases done : graph.perform? (.register node) with
    | none =>
      obtain ⟨_, same, taken⟩ := (filled.perform?_eq_none_iff _).1 done
      cases same
      exact filled.refused taken
    | some next => exact filled.registered done

end

/-- A graph is started for a directory and filled by any calls. Then its root is still as it was; its
files are those that were met; its registry holds of every id that came the first node under this id,
in the order in which the ids came; and its counts are those of the registered nodes. A further call
is refused exactly if it brings a node whose id is in the registry, because a node before has brought
it, and then the graph is left as it is. -/
theorem filled_of_calls (name path : Text) (calls : List Call) :
    let start : Graph Text := ofDirectory name path
    let graph := start.fill calls
    graph.root = start.root ∧
    graph.files = filesOf calls ∧
    graph.nodes.entries = (firsts (nodesOf calls)).map (fun node => (node.id, node)) ∧
    graph.stats.nodes = graph.nodes.size ∧
    graph.stats = Stats.recount graph.nodes.values ∧
    ∀ call,
      (graph.perform? call = none ↔ ∃ node, call = .register node ∧ node.id ∈ graph.nodes.keys) ∧
      (graph.perform? call = none ↔
        ∃ node, call = .register node ∧ ∃ earlier ∈ nodesOf calls, earlier.id = node.id) ∧
      (graph.perform? call = none → start.fill (calls ++ [call]) = graph) := by
  intro start graph
  have filled : Filled start.root calls graph := by
    induction calls using List.reverseRecOn with
    | nil => exact filled_empty name path
    | append_singleton calls call ih =>
      have step := ih.step call
      rwa [← fill_append] at step
  have size : graph.stats.nodes = graph.nodes.size := by
    rw [filled.counted, Stats.recount, Table.size, Table.values, List.length_map]
  refine ⟨filled.root, filled.files, filled.entries, size, filled.counted, fun call => ⟨?_, ?_, ?_⟩⟩
  · simp only [filled.perform?_eq_none_iff, ← Table.contains_iff, filled.contains_iff]
  · simp only [filled.perform?_eq_none_iff, List.mem_map]
  · intro refused
    rw [fill_append, refused]
    rfl

/-- A file that is met and registered as a utility. -/
def metOnce : List Call :=
  [.meet "a.js", .register { id := "a.js", name := "a", path := "a.js", kind := "util" }]

/-- Another node with the same id. -/
def again : Node Text :=
  { id := "a.js", name := "A", path := "A.js", kind := "component", several := true }

/-- The other node is refused and not counted. -/
theorem again_refused : let start : Graph Text := ofDirectory "p" "/p"
    (start.fill metOnce).perform? (.register again) = none ∧
    start.fill (metOnce ++ [.register again]) = start.fill metOnce ∧
    (start.fill metOnce).stats = { nodes := 1, utilities := 1 } := by
  intro start
  obtain ⟨-, -, -, -, -, each⟩ := filled_of_calls "p" "/p" metOnce
  obtain ⟨-, repeats, unchanged⟩ := each (.register again)
  have refused : (start.fill metOnce).perform? (.register again) = none :=
    repeats.2 ⟨again, rfl, _, List.mem_singleton_self _, rfl⟩
  exact ⟨refused, unchanged refused, rfl⟩

end ModuleAtlas.Graph
