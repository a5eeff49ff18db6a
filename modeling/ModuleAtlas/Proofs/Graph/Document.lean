import ModuleAtlas.Graph.Document
import ModuleAtlas.Proofs.Json.Printer
import ModuleAtlas.Proofs.Outcome
/-!
Documents of graphs. What reading a document takes from it is written in a form that is read as the
same again: for a node (`ofJson_toJson`), for the counts, and so for a whole graph that has been read
from a document whose numbers are integers (`ofText_text`).
-/
namespace ModuleAtlas
open Json (IsIntegral member? mem_of_member?)

/-! ## Integers -/

namespace Number

/-- Digits of a base stay below the power of it that has as many zeros. -/
theorem readDigits_lt {base : Nat} {read : Digits} {t rest : Text} {value count : Nat}
    (below : read.value < base ^ read.count)
    (found : readDigits base read t = some (value, count, rest)) : value < base ^ count := by
  induction t generalizing read with
  | nil =>
    rw [readDigits] at found
    split at found
    · cases found
    · cases found
      exact below
  | cons c t ih =>
    rw [readDigits] at found
    split at found
    · rename_i d digit
      have small : d < base := by simpa using (Option.filter_eq_some_iff.1 digit).2
      refine ih ?_ found
      calc read.value * base + d < read.value * base + base := by omega
        _ = (read.value + 1) * base := by rw [Nat.add_mul, Nat.one_mul]
        _ ≤ base ^ read.count * base := Nat.mul_le_mul_right base below
        _ = base ^ (read.count + 1) := (Nat.pow_succ ..).symm
    · split at found
      · split at found
        · cases found
        · exact @ih ⟨read.value, read.count, true⟩ below found
      · split at found
        · cases found
        · cases found
          exact below

/-- An integer that has been read from its decimal digits is no longer than the limit. -/
theorem isIntegral_readInteger {t : Text} {n : Int} (read : readInteger 10 t = .ok n) :
    IsIntegral (.int n) := by
  simp only [readInteger] at read
  split at read
  · cases read
  split at read
  · cases read
  rename_i value count rest digits
  split at read
  · cases read
  split at read
  · cases read
  rename_i within
  split at read
  · have bound : value < 10 ^ count := readDigits_lt (by simp) digits
    have short : count ≤ digitLimit := by
      simpa [baseLetter?] using within
    have size : n.natAbs = value := by
      cases read
      split <;> simp
    rw [Json.IsIntegral, Text.length_ofNat_le_iff (by decide), size]
    exact bound.trans_le (Nat.pow_le_pow_right (by decide) short)
  · cases read

end Number

/-! ## Values -/

namespace Json

theorem isIntegral_digit {n : Int} (small : n.natAbs < 10) : IsIntegral (.int n) := by
  rw [IsIntegral, Text.ofNat, Nat.toDigits_of_lt_base small]
  exact (by decide : 1 ≤ Number.digitLimit)

theorem IsIntegral.values {ms : List (Text × Json)} (whole : IsIntegral (.object ms)) :
    ∀ m ∈ ms, IsIntegral m.2 := fun m inside => ((isIntegral_object.1 whole).2 m inside).2

theorem isIntegral_member {ms : List (Text × Json)} (each : ∀ m ∈ ms, IsIntegral m.2) {key : Text}
    {x : Json} (found : member? ms key = some x) : IsIntegral x :=
  each _ (mem_of_member? found)

/-- A member or what stands for it if it is missing. -/
theorem isIntegral_memberD {ms : List (Text × Json)} (each : ∀ m ∈ ms, IsIntegral m.2) (key : Text)
    {other : Json} (standing : IsIntegral other) : IsIntegral ((member? ms key).getD other) := by
  cases found : member? ms key with
  | none => exact standing
  | some x => exact isIntegral_member each found

@[simp] theorem listed_array (xs : List Json) : listed (some (array xs)) = .ok xs := by
  cases xs <;> rfl

@[simp] theorem listed_string (t : Text) :
    listed (some (string t)) = .ok (t.map fun c => string [c]) := by
  cases t <;> rfl

@[simp] theorem listed_object (ms : List (Text × Json)) :
    listed (some (object ms)) = .ok (ms.map fun member => string member.1) := by
  cases ms <;> rfl

/-- What a list is read from has no other values than the list. -/
theorem isIntegral_listed {value : Option Json} {xs : List Json}
    (whole : ∀ x, value = some x → IsIntegral x) (read : listed value = .ok xs) :
    ∀ x ∈ xs, IsIntegral x := by
  rcases value with - | value
  · cases read
    simp
  have whole := whole value rfl
  cases value with
  | array ys =>
    rw [listed_array] at read
    cases read
    exact isIntegral_array.1 whole
  | string t =>
    rw [listed_string] at read
    cases read
    simpa [Text.IsScalar] using isIntegral_string.1 whole
  | object ms =>
    rw [listed_object] at read
    cases read
    simp only [List.forall_mem_map]
    exact fun m inside => ((isIntegral_object.1 whole).2 m inside).1
  | _ =>
    simp only [listed] at read
    split at read
    · cases read
      simp
    · cases read

theorem isIntegral_toInteger {value : Json} {n : Int} (whole : IsIntegral value)
    (read : value.toInteger = .ok n) : IsIntegral (.int n) := by
  cases value with
  | null => cases read
  | bool b =>
    cases read
    cases b <;> exact isIntegral_digit (by decide)
  | int m =>
    cases read
    exact whole
  | double d => exact absurd whole (by simp [IsIntegral])
  | string t =>
    rw [toInteger] at read
    cases found : Number.readInteger 10 t with
    | error fault =>
      rw [found] at read
      cases read
    | ok m =>
      rw [found] at read
      cases read
      exact Number.isIntegral_readInteger found
  | array xs => cases read
  | object ms => cases read

end Json

/-! ## Nodes -/

@[simp] theorem Label.toJson_json (value : Json) : Label.toJson value = value := rfl

namespace Node

@[simp] theorem toJsonAll_eq_map (nodes : List (Node Json)) :
    toJsonAll nodes = nodes.map toJson := by
  induction nodes with
  | nil => rfl
  | cons node nodes ih => rw [toJsonAll, ih, List.map_cons]

/-- The document of the node has no other numbers than integers, and is read as the node. -/
def IsKept (node : Node Json) : Prop := IsIntegral node.toJson ∧ ofJson node.toJson = .ok node

theorem ofJsonAll_toJsonAll {nodes : List (Node Json)} (kept : ∀ node ∈ nodes, node.IsKept) :
    ofJsonAll (toJsonAll nodes) = .ok nodes := by
  induction nodes with
  | nil => rfl
  | cons node nodes ih =>
    obtain ⟨here, later⟩ := List.forall_mem_cons.1 kept
    rw [toJsonAll, ofJsonAll, here.2, ih later]
    rfl

/-- The labels of a node are read off its document, whatever comes behind them. -/
theorem ofMembers_own (id name path kind : Json) (several : Bool) (imports importers : List Json)
    (below : List (Text × Json)) (children : Except GraphFault (List (Node Json))) :
    ofMembers (("id", id) :: ("name", name) :: ("path", path) :: ("type", kind) ::
      ("multipleComp", .bool several) :: ("imports", .array imports) ::
      ("importedBy", .array importers) :: below) children =
    children.map fun children => ⟨id, name, path, kind, several, imports, importers, children⟩ := by
  have targets := Json.listed_array imports
  have sources := Json.listed_array importers
  calc ofMembers _ children
      = (Json.listed (some (.array imports))).bind fun imports =>
          (Json.listed (some (.array importers))).bind fun importers =>
            children.map fun children =>
              ⟨id, name, path, kind, several, imports, importers, children⟩ := rfl
    _ = children.map fun children =>
          ⟨id, name, path, kind, several, imports, importers, children⟩ := by
      rw [targets, sources]
      rfl

/-- A node is kept if its labels are integral and its children are kept. -/
theorem isKept_mk {id name path kind : Json} {imports importers : List Json}
    {children : List (Node Json)} (ids : IsIntegral id) (names : IsIntegral name)
    (paths : IsIntegral path) (kinds : IsIntegral kind) (targets : ∀ x ∈ imports, IsIntegral x)
    (sources : ∀ x ∈ importers, IsIntegral x) (kept : ∀ child ∈ children, child.IsKept)
    (several : Bool) : IsKept ⟨id, name, path, kind, several, imports, importers, children⟩ := by
  have labels : ∀ xs : List Json, xs.map Label.toJson = xs := fun xs => List.map_id xs
  have again := ofJsonAll_toJsonAll kept
  cases children with
  | nil =>
    constructor
    · simpa [toJson, labels] using ⟨ids, names, paths, kinds, targets, sources⟩
    · rw [toJson, labels, labels]
      exact ofMembers_own id name path kind several imports importers [] (.ok [])
  | cons child children =>
    have below := fun other inside => (kept other inside).1
    constructor
    · rw [List.forall_mem_cons] at below
      simpa [toJson, labels] using ⟨ids, names, paths, kinds, targets, sources, below⟩
    · rw [toJson, labels, labels]
      refine (ofMembers_own id name path kind several imports importers
        [("children", .array (toJsonAll (child :: children)))] _).trans ?_
      change (ofJsonAll (toJsonAll (child :: children))).map _ = _
      rw [again]
      rfl

theorem isKept_ofMembers {ms : List (Text × Json)} {children : Except GraphFault (List (Node Json))}
    {node : Node Json} (each : ∀ m ∈ ms, IsIntegral m.2)
    (below : ∀ cs, children = .ok cs → ∀ child ∈ cs, child.IsKept)
    (read : ofMembers ms children = .ok node) : node.IsKept := by
  rw [ofMembers] at read
  cases found : member? ms "id" with
  | none =>
    rw [found] at read
    cases read
  | some id =>
    rw [found] at read
    obtain ⟨imports, targets, read⟩ := bind_eq_ok.1 read
    obtain ⟨importers, sources, read⟩ := bind_eq_ok.1 read
    obtain ⟨cs, kept, rfl⟩ := map_eq_ok.1 read
    have member : ∀ key x, member? ms key = some x → IsIntegral x := fun _ _ =>
      Json.isIntegral_member each
    have text := fun key (t : Text) (scalar : t.IsScalar) =>
      Json.isIntegral_memberD each key (Json.isIntegral_string.2 scalar)
    exact isKept_mk (Json.isIntegral_member each found) (text _ _ (by decide)) (text _ _ (by decide))
      (text _ _ (by decide))
      (Json.isIntegral_listed (member _) targets) (Json.isIntegral_listed (member _) sources)
      (below cs kept) _

/-- The nodes of the member for children come from its value. -/
theorem ofChildren_eq {ms : List (Text × Json)} {nodes : List (Node Json)}
    (read : ofChildren ms = .ok nodes) : nodes = [] ∨ ∃ m ∈ ms, ofValue m.2 = .ok nodes := by
  induction ms with
  | nil =>
    cases read
    exact .inl rfl
  | cons m ms ih =>
    obtain ⟨key, value⟩ := m
    rw [ofChildren] at read
    split at read
    · exact .inr ⟨(key, value), by simp, read⟩
    · exact (ih read).imp_right fun ⟨m, inside, found⟩ => ⟨m, by simp [inside], found⟩

/-- A value that is no array has no nodes. -/
theorem ofOther_eq {value : Json} {nodes : List (Node Json)} (read : ofOther value = .ok nodes) :
    nodes = [] := by
  rw [ofOther] at read
  split at read
  · cases read
  · cases read
    rfl

/-- Whatever node is read from an integral document is kept, and so are the nodes of its children. -/
theorem isKept_ofJson {value : Json} (whole : IsIntegral value) :
    (∀ node, ofJson value = .ok node → node.IsKept) ∧
      ∀ nodes, ofValue value = .ok nodes → ∀ node ∈ nodes, node.IsKept := by
  have none : ∀ value nodes, ofOther value = .ok nodes → ∀ node ∈ nodes, node.IsKept := by
    intro value nodes read
    simp [ofOther_eq read]
  induction value using Json.induction_on with
  | object ms ih =>
    have each := whole.values
    refine ⟨fun node read => isKept_ofMembers each ?_ read, none _⟩
    intro cs read
    rcases ofChildren_eq read with rfl | ⟨m, inside, found⟩
    · simp
    · exact (ih m inside (each m inside)).2 cs found
  | array xs ih =>
    rw [Json.isIntegral_array] at whole
    refine ⟨fun node read => (by cases read), ?_⟩
    intro nodes read
    rw [ofValue] at read
    induction xs generalizing nodes with
    | nil =>
      cases read
      simp
    | cons x xs more =>
      obtain ⟨first, here, read⟩ := bind_eq_ok.1 read
      obtain ⟨others, later, rfl⟩ := map_eq_ok.1 read
      rw [List.forall_mem_cons] at ih whole
      exact List.forall_mem_cons.2 ⟨(ih.1 whole.1).1 first here, more ih.2 whole.2 others later⟩
  | _ => exact ⟨fun node read => (by cases read), none _⟩

end Node
/-! ## Counts -/

namespace Stats

theorem isIntegral_count {ms : List (Text × Json)} (each : ∀ m ∈ ms, IsIntegral m.2) {key : Text}
    {n : Int} (read : count ms key = .ok n) : IsIntegral (.int n) := by
  rw [count] at read
  cases found : member? ms key with
  | none =>
    rw [found] at read
    cases read
    exact Json.isIntegral_digit (by decide)
  | some value =>
    rw [found] at read
    exact Json.isIntegral_toInteger (Json.isIntegral_member each found) read

theorem isIntegral_ofMembers {ms : List (Text × Json)} {stats : Stats}
    (each : ∀ m ∈ ms, IsIntegral m.2) (read : ofMembers ms = .ok stats) :
    IsIntegral stats.toJson := by
  rw [ofMembers] at read
  obtain ⟨_, nodes, read⟩ := bind_eq_ok.1 read
  obtain ⟨_, severalComponents, read⟩ := bind_eq_ok.1 read
  obtain ⟨_, components, read⟩ := bind_eq_ok.1 read
  obtain ⟨_, states, read⟩ := bind_eq_ok.1 read
  obtain ⟨_, utilities, rfl⟩ := map_eq_ok.1 read
  simpa [toJson] using ⟨isIntegral_count each nodes, isIntegral_count each severalComponents,
    isIntegral_count each components, isIntegral_count each states, isIntegral_count each utilities⟩

end Stats

/-! ## Registries -/

namespace Graph

theorem isIntegral_partMembers {value : Option Json} {ms : List (Text × Json)}
    (whole : ∀ x, value = some x → IsIntegral x) (read : partMembers value = .ok ms) :
    (ms.map Prod.fst).Nodup ∧ ∀ m ∈ ms, m.1.IsScalar ∧ IsIntegral m.2 := by
  unfold partMembers at read
  split at read
  · cases read
    simp
  · cases read
    exact Json.isIntegral_object.1 (whole _ rfl)
  · split at read
    · cases read
    · cases read
      simp

/-- What is read from the members of a registry is registered under their keys, and kept. -/
theorem mapM_members {ms : List (Text × Json)} {pairs : List (Json × Node Json)}
    (each : ∀ m ∈ ms, IsIntegral m.2)
    (read : (ms.mapM fun (key, value) => (Node.ofJson value).map fun node =>
      (Json.string key, node)) = .ok pairs) :
    pairs.map Prod.fst = ms.map (fun m => Json.string m.1) ∧ ∀ pair ∈ pairs, pair.2.IsKept := by
  induction ms generalizing pairs with
  | nil =>
    cases read
    simp
  | cons m ms ih =>
    rw [List.mapM_cons] at read
    obtain ⟨pair, here, read⟩ := bind_eq_ok.1 read
    obtain ⟨others, later, read⟩ := bind_eq_ok.1 read
    obtain ⟨node, found, rfl⟩ := map_eq_ok.1 here
    cases read
    rw [List.forall_mem_cons] at each
    have kept := (Node.isKept_ofJson each.1).1 node found
    have rest := ih each.2 later
    exact ⟨by simp [rest.1], List.forall_mem_cons.2 ⟨kept, rest.2⟩⟩

/-- The documents of kept nodes under texts are read as these nodes under these texts. -/
theorem mapM_documents {pairs : List (Json × Node Json)} {keys : List Text}
    (texts : pairs.map Prod.fst = keys.map Json.string) (kept : ∀ pair ∈ pairs, pair.2.IsKept) :
    ((pairs.map fun (key, node) => (Label.keyText key, node.toJson)).mapM fun (key, value) =>
      (Node.ofJson value).map fun node => (Json.string key, node)) = .ok pairs := by
  induction pairs generalizing keys with
  | nil => rfl
  | cons pair pairs ih =>
    obtain ⟨label, node⟩ := pair
    cases keys with
    | nil => cases texts
    | cons key keys =>
      rw [List.map_cons, List.map_cons, List.cons.injEq] at texts
      obtain ⟨here, later⟩ := texts
      obtain ⟨first, others⟩ := List.forall_mem_cons.1 kept
      simp only at here
      subst here
      rw [List.map_cons, List.mapM_cons, ih later others]
      simp only [first.2]
      rfl

/-- The document of a registry. -/
def registryMembers (nodes : Table Json (Node Json)) : List (Text × Json) :=
  nodes.entries.map fun (key, node) => (Label.keyText key, node.toJson)

theorem registryOf_registryMembers {ms : List (Text × Json)} {nodes : Table Json (Node Json)}
    (distinct : (ms.map Prod.fst).Nodup) (each : ∀ m ∈ ms, m.1.IsScalar ∧ IsIntegral m.2)
    (read : registryOf ms = .ok nodes) :
    IsIntegral (.object (registryMembers nodes)) ∧
      registryOf (registryMembers nodes) = .ok nodes ∧
      nodes.keys.all fun key => (Label.text? key).isSome := by
  obtain ⟨pairs, found, rfl⟩ := map_eq_ok.1 read
  obtain ⟨keys, kept⟩ := mapM_members (fun m inside => (each m inside).2) found
  have apart : (pairs.map Prod.fst).Pairwise fun a b => (a == b) = false := by
    rw [keys, List.pairwise_map]
    rw [List.Nodup, List.pairwise_map] at distinct
    exact distinct.imp fun other => beq_eq_false_iff_ne.2 other
  have entries := Table.entries_ofList_of_apart apart
  have texts : pairs.map Prod.fst = (ms.map Prod.fst).map Json.string := by
    rw [keys, List.map_map]
    rfl
  refine ⟨?_, ?_, ?_⟩
  · rw [Json.isIntegral_object, registryMembers, entries, List.map_map, List.forall_mem_map]
    have same : pairs.map (Prod.fst ∘ fun pair => (Label.keyText pair.1, pair.2.toJson)) =
        ms.map Prod.fst := by
      calc pairs.map (Prod.fst ∘ fun pair => (Label.keyText pair.1, pair.2.toJson))
          = (pairs.map Prod.fst).map Label.keyText := by rw [List.map_map]; rfl
        _ = (ms.map Prod.fst).map (Label.keyText ∘ Json.string) := by rw [texts, List.map_map]
        _ = ms.map Prod.fst := List.map_id _
    refine ⟨by rw [same]; exact distinct, fun pair inside => ⟨?_, (kept pair inside).1⟩⟩
    have among : pair.1 ∈ (ms.map Prod.fst).map Json.string := texts ▸ List.mem_map_of_mem inside
    obtain ⟨key, member, named⟩ := List.mem_map.1 among
    obtain ⟨m, inside, rfl⟩ := List.mem_map.1 member
    simp only [← named]
    exact (each m inside).1
  · rw [registryOf, registryMembers, entries, mapM_documents texts kept]
    rfl
  · rw [Table.keys, entries, texts]
    simp only [List.all_map, List.all_eq_true]
    exact fun _ _ => rfl

/-! ## Documents -/

theorem toJson_eq (graph : Graph Json) : graph.toJson =
    .object [("root", graph.root.toJson), ("nodesMap", .object (registryMembers graph.nodes)),
      ("files", .array graph.files), ("stats", graph.stats.toJson)] := by
  rw [toJson, registryMembers, List.map_congr_left fun x _ => Label.toJson_json x, List.map_id']

theorem ofMembers_toJson (stats : Stats) :
    ∃ ms, stats.toJson = .object ms ∧ Stats.ofMembers ms = .ok stats :=
  ⟨_, rfl, rfl⟩

/-- A document with all parts is read part by part. -/
theorem ofJson_parts (root : Json) (registry counts : List (Text × Json)) (files : List Json) :
    ofJson (.object [("root", root), ("nodesMap", .object registry), ("files", .array files),
      ("stats", .object counts)]) =
    (Node.ofJson root).bind fun root => (registryOf registry).bind fun nodes =>
      (Stats.ofMembers counts).map fun stats => { root, nodes, files, stats } := by
  have listed := Json.listed_array files
  calc ofJson _
      = (Node.ofJson root).bind fun root => (registryOf registry).bind fun nodes =>
          (Json.listed (some (.array files))).bind fun files =>
            (Stats.ofMembers counts).map fun stats => { root, nodes, files, stats } := rfl
    _ = _ := by
      rw [listed]
      rfl

/-- The document of a graph that has been read from an integral document is integral and is read as
the same graph. -/
theorem ofJson_toJson {d : Json} {graph : Graph Json} (whole : IsIntegral d)
    (accepted : ofJson d = .ok graph) :
    IsIntegral graph.toJson ∧ ofJson graph.toJson = .ok graph ∧
      graph.nodes.keys.all fun key => (Label.text? key).isSome := by
  obtain ⟨ms, fields, accepted⟩ := bind_eq_ok.1 accepted
  have each : ∀ m ∈ ms, IsIntegral m.2 := by
    cases d with
    | object members =>
      cases fields
      exact whole.values
    | _ => cases fields
  have member : ∀ key x, member? ms key = some x → IsIntegral x := fun _ _ =>
    Json.isIntegral_member each
  split at accepted
  · cases accepted
  rename_i rootValue found
  obtain ⟨root, rooted, accepted⟩ := bind_eq_ok.1 accepted
  obtain ⟨nodes, registered, accepted⟩ := bind_eq_ok.1 accepted
  obtain ⟨files, listed, accepted⟩ := bind_eq_ok.1 accepted
  obtain ⟨stats, counted, rfl⟩ := map_eq_ok.1 accepted
  obtain ⟨entries, part, registered⟩ := bind_eq_ok.1 registered
  obtain ⟨counts, part', counted⟩ := bind_eq_ok.1 counted
  obtain ⟨distinct, integral⟩ := isIntegral_partMembers (member _) part
  have keptRoot := (Node.isKept_ofJson (member _ _ found)).1 root rooted
  obtain ⟨registry, again, texts⟩ := registryOf_registryMembers distinct integral registered
  have keptFiles := Json.isIntegral_listed (member _) listed
  have keptStats := Stats.isIntegral_ofMembers
    (fun m inside => ((isIntegral_partMembers (member _) part').2 m inside).2) counted
  obtain ⟨counts', document, recounted⟩ := ofMembers_toJson stats
  rw [toJson_eq]
  refine ⟨?_, ?_, texts⟩
  · refine Json.isIntegral_object.2 ⟨by simp, ?_⟩
    simp only [List.forall_mem_cons]
    exact ⟨⟨by decide, keptRoot.1⟩, ⟨by decide, registry⟩,
      ⟨by decide, Json.isIntegral_array.2 keptFiles⟩,
      ⟨by decide, keptStats⟩, by simp⟩
  · rw [document, ofJson_parts, keptRoot.2, again, recounted]
    rfl

/-- A graph that has been read from a document whose numbers are integers and whose strings have no
surrogates is read again from what is written for it, with whatever indent: the very graph, with its
registry in the same order, so that the same text is written for it again. This text is of the basic
alphabet. -/
theorem ofText_text {d : Json} {graph : Graph Json} (whole : IsIntegral d)
    (accepted : ofJson d = .ok graph) (indent : Option Int) :
    ofText (graph.text (.ofIndent indent)) = .ok graph ∧ graph.same graph ∧
      Json.IsBasic (graph.text (.ofIndent indent)) := by
  obtain ⟨integral, again, texts⟩ := ofJson_toJson whole accepted
  refine ⟨?_, ?_, Json.isBasic_text _ _⟩
  · rw [ofText, text, Json.read_text integral]
    exact again
  · simp [same, texts, Json.same_self integral]

/-- A document with little in it and that in other forms: a number for a truth value, a text for a
list and for a count, a truth value for a count. -/
def sparse : Json :=
  .object [
    ("root", .object [("id", .string "root"), ("children", .array [
      .object [("id", .string "😀"), ("multipleComp", .int 2), ("imports", .null)]])]),
    ("nodesMap", .object [("😀", .object [("id", .array [.null]), ("imports", .string "\n√")])]),
    ("stats", .object [("totalComponents", .string " +1_2 "), ("stateFiles", .bool true)])]

theorem sparse_text : ∃ graph : Graph Json, ofJson sparse = .ok graph ∧ graph.stats.nodes = 12 ∧
    ofText (graph.text (.ofIndent (some (-1)))) = .ok graph ∧ graph.same graph ∧
      Json.IsBasic (graph.text (.ofIndent (some (-1)))) := by
  have whole : IsIntegral sparse := by
    have two := Json.isIntegral_digit (n := 2) (by decide)
    have null : IsIntegral .null := trivial
    simp [sparse, two, null]
  exact ⟨_, rfl, rfl, ofText_text whole rfl (some (-1))⟩

end Graph
end ModuleAtlas
