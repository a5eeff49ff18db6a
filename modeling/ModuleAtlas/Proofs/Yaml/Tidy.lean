import ModuleAtlas.Proofs.Configuration.Tidy
import ModuleAtlas.Proofs.Outcome
import ModuleAtlas.Yaml.Meaning
/-!
What is read as YAML is tidy (`tidy_read`): its numbers are rounded when they are read and computed,
and the entries of a mapping are written one after the other, merged ones first, so no key is there
twice. This holds of a node if it holds of the nodes it is made of (`isSound_ofParts`).
-/
namespace ModuleAtlas.Yaml
open Value (IsTidy AreTidy HaveTidy)

/-! ## Scalars of YAML -/

theorem isReduced_sexagesimal {digits : List Double} {d : Double}
    (read : sexagesimal digits = .ok d) : d.IsReduced := by
  rw [sexagesimal] at read
  split at read
  · cases read
  · cases read
    refine List.foldlRecOn (motive := fun pair : Double × Int => pair.1.IsReduced) digits _
      (Double.isReduced_zero false) ?_
    rintro ⟨sum, base⟩ - digit -
    exact Double.isReduced_add _ _

theorem isReduced_unsignedDecimal {t : Text} {d : Double} (read : unsignedDecimal t = .ok d) :
    d.IsReduced := by
  rw [unsignedDecimal] at read
  split at read
  · cases read
    trivial
  · split at read
    · cases read
      trivial
    · split at read
      · obtain ⟨parts, -, summed⟩ := bind_eq_ok.1 read
        exact isReduced_sexagesimal summed
      · rw [decimal] at read
        split at read
        · rename_i found
          cases read
          exact Double.isReduced_readDouble? found
        · cases read

theorem tidy_floatValue {t : Text} {v : Value} (read : floatValue t = .ok v) : v.IsTidy := by
  rw [floatValue] at read
  split at read
  · cases read
  · split at read
    · obtain ⟨d, found, rfl⟩ := map_eq_ok.1 read
      exact (isReduced_unsignedDecimal found).neg
    · split at read <;>
      · obtain ⟨d, found, rfl⟩ := map_eq_ok.1 read
        exact isReduced_unsignedDecimal found

theorem tidy_timestampValue {t : Text} {v : Value} (read : timestampValue t = .ok v) : v.IsTidy := by
  simp only [timestampValue] at read
  split at read
  · cases read
  · split at read
    · rename_i checked
      cases read
      split at checked <;>
      · obtain ⟨stamp, -, rfl⟩ := map_eq_ok.1 checked
        trivial
    · cases read

theorem tidy_scalarValue {tag : Tag} {t : Text} {v : Value} (read : scalarValue tag t = .ok v) :
    v.IsTidy := by
  rw [scalarValue.eq_def] at read
  split at read
  · cases read
    trivial
  · simp only [boolValue] at read
    repeat' split at read
    all_goals cases read
    all_goals trivial
  · rw [intValue] at read
    repeat' split at read
    · cases read
    all_goals
      obtain ⟨n, -, rfl⟩ := map_eq_ok.1 read
      trivial
  · exact tidy_floatValue read
  · rw [binaryValue] at read
    repeat' split at read
    all_goals cases read
    trivial
  · exact tidy_timestampValue read
  · cases read
    trivial
  · cases read

/-! ## Collections of YAML -/

/-- The value is tidy, and so are the values of everything the node is made of. -/
inductive IsSound : Meaning → Prop
  | mk {m : Meaning} (value : m.value.IsTidy)
    (items : ∀ items, m.items = some items → ∀ item ∈ items, IsSound item)
    (keys : ∀ written, m.written = some written → ∀ entry ∈ written, IsSound entry.1)
    (values : ∀ written, m.written = some written → ∀ entry ∈ written, IsSound entry.2)
    (mergedKeys : ∀ entries, m.entries = some entries → ∀ entry ∈ entries, IsSound entry.1)
    (mergedValues : ∀ entries, m.entries = some entries → ∀ entry ∈ entries, IsSound entry.2) :
    IsSound m

/-- The meanings of all keys and values of the entries are sound. -/
def AreSound (entries : List (Meaning × Meaning)) : Prop :=
  ∀ entry ∈ entries, IsSound entry.1 ∧ IsSound entry.2

theorem IsSound.value {m : Meaning} (sound : IsSound m) : m.value.IsTidy := by
  obtain ⟨value⟩ := sound
  exact value

theorem IsSound.item {m : Meaning} (sound : IsSound m) {items : List Meaning}
    (sequence : m.items = some items) : ∀ item ∈ items, IsSound item := by
  obtain ⟨-, all⟩ := sound
  exact all items sequence

theorem IsSound.written {m : Meaning} (sound : IsSound m) {written : List (Meaning × Meaning)}
    (mapping : m.written = some written) : AreSound written := by
  obtain ⟨-, -, keys, values⟩ := sound
  exact fun entry inside => ⟨keys written mapping entry inside, values written mapping entry inside⟩

theorem IsSound.entries {m : Meaning} (sound : IsSound m) {entries : List (Meaning × Meaning)}
    (mapping : m.entries = some entries) : AreSound entries := by
  obtain ⟨-, -, -, -, keys, values⟩ := sound
  exact fun entry inside => ⟨keys entries mapping entry inside, values entries mapping entry inside⟩

theorem IsSound.asKey {m : Meaning} (sound : IsSound m) : IsSound m.asKey := by
  rw [Meaning.asKey]
  split
  · exact .mk trivial (by simp [Meaning.items]) (by simp [Meaning.written])
      (by simp [Meaning.written]) (by simp [Meaning.entries]) (by simp [Meaning.entries])
  · exact sound

theorem exists_of_mapM {α β : Type} {f : α → Option β} {xs : List α} {ys : List β}
    (all : xs.mapM f = some ys) : ∀ y ∈ ys, ∃ x ∈ xs, f x = some y := by
  induction xs generalizing ys with
  | nil =>
    obtain rfl : [] = ys := Option.some.inj all
    simp
  | cons x xs ih =>
    rw [List.mapM_cons] at all
    obtain ⟨y, here, more⟩ := Option.bind_eq_some_iff.1 all
    obtain ⟨zs, later, same⟩ := Option.bind_eq_some_iff.1 more
    obtain rfl : y :: zs = ys := Option.some.inj same
    refine List.forall_mem_cons.2 ⟨⟨x, by simp, here⟩, fun z inside => ?_⟩
    obtain ⟨x', among, found⟩ := ih later z inside
    exact ⟨x', List.mem_cons_of_mem x among, found⟩

theorem IsSound.mergedEntries {m : Meaning} (sound : IsSound m)
    {entries : List (Meaning × Meaning)} (merged : m.mergedEntries = some entries) :
    AreSound entries := by
  rw [Meaning.mergedEntries.eq_def] at merged
  split at merged
  · exact sound.entries merged
  · rename_i items _ sequence
    obtain ⟨lists, all, rfl⟩ := Option.map_eq_some_iff.1 merged
    intro entry inside
    obtain ⟨list, among, here⟩ := List.mem_flatten.1 inside
    obtain ⟨item, listed, found⟩ := exists_of_mapM all list (List.mem_reverse.1 among)
    split at found
    · exact (sound.item sequence item listed).entries found entry here
    · cases found
  · cases merged

theorem AreSound.split {written merged own : List (Meaning × Meaning)} (sound : AreSound written)
    (parts : Meaning.split written = some (merged, own)) : AreSound merged ∧ AreSound own := by
  induction written generalizing merged own with
  | nil =>
    cases parts
    exact ⟨by simp [AreSound], by simp [AreSound]⟩
  | cons entry rest ih =>
    obtain ⟨key, m⟩ := entry
    obtain ⟨⟨first, second⟩, later⟩ := List.forall_mem_cons.1 sound
    rw [Meaning.split] at parts
    obtain ⟨⟨before, behind⟩, found, here⟩ := Option.bind_eq_some_iff.1 parts
    obtain ⟨others, owns⟩ := ih later found
    simp only at here
    split at here
    · obtain ⟨more, taken, same⟩ := Option.map_eq_some_iff.1 here
      cases same
      exact ⟨List.forall_mem_append.2 ⟨second.mergedEntries taken, others⟩, owns⟩
    · cases here
      exact ⟨others, List.forall_mem_cons.2 ⟨⟨first.asKey, second⟩, owns⟩⟩

theorem AreSound.withMerged {written entries : List (Meaning × Meaning)} (sound : AreSound written)
    (merged : Meaning.withMerged written = some entries) : AreSound entries := by
  obtain ⟨⟨before, own⟩, parts, rfl⟩ := Option.map_eq_some_iff.1 merged
  obtain ⟨first, second⟩ := sound.split parts
  exact List.forall_mem_append.2 ⟨first, second⟩

/-- Sound entries make a tidy mapping. -/
theorem AreSound.tidy {entries : Option (List (Meaning × Meaning))}
    (sound : ∀ written, entries = some written → AreSound written) :
    IsTidy (.map (Meaning.entriesValue entries)) := by
  refine Value.isTidy_entriesOf fun pair inside => ?_
  obtain ⟨entry, among, rfl⟩ := List.mem_map.1 inside
  cases entries with
  | none => cases among
  | some written =>
    obtain ⟨key, value⟩ := sound written rfl entry among
    exact ⟨key.value, value.value⟩

theorem tidy_pairsValue {items : List Meaning} (sound : ∀ item ∈ items, IsSound item) :
    IsTidy (Meaning.pairsValue items) := by
  refine Value.areTidy_iff.2 fun v inside => ?_
  obtain ⟨item, among, found⟩ := List.mem_filterMap.1 inside
  obtain ⟨⟨key, m⟩, only, rfl⟩ := Option.map_eq_some_iff.1 found
  rw [Meaning.single?.eq_def] at only
  split at only
  · rename_i written
    cases only
    obtain ⟨first, second⟩ := (sound item among).written written (key, m) (by simp)
    exact ⟨first.value, second.value⟩
  · cases only

theorem tidy_assess {tag : Tag} {scalar : Bool} {text : Option Text} {items : Option (List Meaning)}
    {written entries : Option (List (Meaning × Meaning))}
    (soundItems : ∀ all, items = some all → ∀ item ∈ all, IsSound item)
    (soundEntries : ∀ all, entries = some all → AreSound all) :
    (Meaning.assess tag scalar text items written entries).1.IsTidy := by
  have mapping := AreSound.tidy soundEntries
  rw [Meaning.assess.eq_def]
  split
  · cases items with
    | none => trivial
    | some items =>
      refine Value.areTidy_iff.2 fun v inside => ?_
      obtain ⟨item, among, rfl⟩ := List.mem_map.1 inside
      exact (soundItems items rfl item among).value
  · exact mapping
  · refine Value.areTidy_iff.2 fun v inside => ?_
    obtain ⟨entry, among, rfl⟩ := List.mem_map.1 inside
    exact (Value.haveTidy_iff.1 mapping.2 entry among).1
  · cases items with
    | none => trivial
    | some items => exact tidy_pairsValue (soundItems items rfl)
  · cases items with
    | none => trivial
    | some items => exact tidy_pairsValue (soundItems items rfl)
  · simp only
    split
    · rename_i read
      split at read
      · cases read
      · split at read
        · cases read
        · exact tidy_scalarValue read
    · trivial

theorem isSound_ofParts {tag : Tag} {scalar : Bool} {text : Option Text}
    {items : Option (List Meaning)} {written : Option (List (Meaning × Meaning))}
    (soundItems : ∀ all, items = some all → ∀ item ∈ all, IsSound item)
    (sound : ∀ all, written = some all → AreSound all) :
    IsSound (Meaning.ofParts tag scalar text items written) := by
  have soundEntries : ∀ all, written.bind Meaning.withMerged = some all → AreSound all := by
    intro all merged
    obtain ⟨own, here, found⟩ := Option.bind_eq_some_iff.1 merged
    exact (sound own here).withMerged found
  exact .mk (tidy_assess soundItems soundEntries) soundItems
    (fun all here entry inside => (sound all here entry inside).1)
    (fun all here entry inside => (sound all here entry inside).2)
    (fun all here entry inside => (soundEntries all here entry inside).1)
    (fun all here entry inside => (soundEntries all here entry inside).2)

mutual

theorem isSound_ofNode (node : Node) : IsSound (Meaning.ofNode node) := by
  cases node with
  | scalar tag t =>
    rw [Meaning.ofNode]
    exact isSound_ofParts (by simp) (by simp)
  | sequence tag items =>
    rw [Meaning.ofNode]
    refine isSound_ofParts ?_ (by simp)
    rintro _ ⟨⟩
    exact isSound_ofNodes items
  | mapping tag entries =>
    rw [Meaning.ofNode]
    refine isSound_ofParts (by simp) ?_
    rintro _ ⟨⟩
    exact areSound_ofPairs entries

theorem isSound_ofNodes (nodes : List Node) : ∀ m ∈ Meaning.ofNodes nodes, IsSound m := by
  cases nodes with
  | nil => simp [Meaning.ofNodes]
  | cons node nodes =>
    exact List.forall_mem_cons.2 ⟨isSound_ofNode node, isSound_ofNodes nodes⟩

theorem areSound_ofPairs (entries : List (Node × Node)) : AreSound (Meaning.ofPairs entries) := by
  cases entries with
  | nil => simp [AreSound, Meaning.ofPairs]
  | cons entry rest =>
    obtain ⟨key, node⟩ := entry
    exact List.forall_mem_cons.2
      ⟨⟨isSound_ofNode key, isSound_ofNode node⟩, areSound_ofPairs rest⟩

end

theorem tidy_read {t : Text} {v : Value} (read : Yaml.read t = .ok v) : v.IsTidy := by
  rw [Yaml.read] at read
  split at read
  · cases read
  · cases read
    trivial
  · rw [Meaning.toValue] at read
    split at read
    · cases read
    · cases read
      exact (isSound_ofNode _).value

end ModuleAtlas.Yaml
