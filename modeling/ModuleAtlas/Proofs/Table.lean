import ModuleAtlas.Proofs.Text.Order
import Mathlib.Data.List.Induction
import Mathlib.Data.List.Perm.Subperm
/-!
What is in a table, said of its keys and of lookups: every key is listed once, a lookup under it
finds its value, and what is written under a key that is there replaces this value only.
-/
namespace ModuleAtlas.Table
variable {κ β γ : Type} [BEq κ]

theorem eq_of_entries {left right : Table κ β} (same : left.entries = right.entries) :
    left = right := by
  cases left
  cases right
  cases same
  rfl

section
variable [LawfulBEq κ]

theorem keys_nodup (table : Table κ β) : table.keys.Nodup :=
  table.distinct.imp fun {_ _} apart same => by simp [same] at apart

/-- A key has one value. -/
theorem value_unique {table : Table κ β} {key : κ} {left right : β}
    (here : (key, left) ∈ table.entries) (there : (key, right) ∈ table.entries) : left = right :=
  Option.some.inj ((get?_eq_some_iff.2 here).symm.trans (get?_eq_some_iff.2 there))

theorem contains_iff {table : Table κ β} {key : κ} : table.contains key ↔ key ∈ table.keys := by
  simp [contains, Option.isSome_iff_exists, get?_eq_some_iff, keys]

theorem contains_of_mem {table : Table κ β} {entry : κ × β} (inside : entry ∈ table.entries) :
    table.contains entry.1 :=
  contains_iff.2 (List.mem_map_of_mem inside)

/-- Lookups do not depend on the order of the keys. -/
theorem get?_eq_of_perm {left right : Table κ β} (same : left.entries.Perm right.entries) (key : κ) :
    left.get? key = right.get? key := by
  ext value
  rw [get?_eq_some_iff, get?_eq_some_iff, same.mem_iff]

/-- Tables in which every key leads to the same value differ in the order of their entries only. -/
theorem perm_of_get? {left right : Table κ β} (same : ∀ key, left.get? key = right.get? key) :
    left.entries.Perm right.entries := by
  refine (List.perm_ext_iff_of_nodup left.keys_nodup.of_map right.keys_nodup.of_map).2 ?_
  rintro ⟨key, value⟩
  rw [← get?_eq_some_iff, ← get?_eq_some_iff, same]

theorem get?_mapEntries (f : κ → β → γ) (table : Table κ β) (key : κ) :
    (table.mapEntries f).get? key = (table.get? key).map (f key) := by
  ext value
  simp only [get?_eq_some_iff, entries_mapEntries, Option.map_eq_some_iff, List.mem_map,
    Prod.mk.injEq]
  constructor
  · rintro ⟨entry, inside, rfl, rfl⟩
    exact ⟨entry.2, inside, rfl⟩
  · rintro ⟨old, inside, rfl⟩
    exact ⟨(key, old), inside, rfl, rfl⟩

theorem contains_mapEntries (f : κ → β → γ) (table : Table κ β) (key : κ) :
    (table.mapEntries f).contains key = table.contains key := by
  simp [contains, get?_mapEntries]

theorem write_of_mem {key : κ} (value : β) {entries : List (κ × β)}
    (distinct : (entries.map Prod.fst).Nodup) (inside : key ∈ entries.map Prod.fst) :
    write key value entries =
      entries.map fun entry => (entry.1, if entry.1 == key then value else entry.2) := by
  induction entries with
  | nil => simp at inside
  | cons entry rest ih =>
    obtain ⟨k, v⟩ := entry
    simp only [List.map_cons, List.nodup_cons] at distinct
    by_cases same : k = key
    · subst same
      have others : ∀ entry ∈ rest, (entry.1, if entry.1 == k then value else entry.2) = entry := by
        intro entry later
        have apart : entry.1 ≠ k := fun same => distinct.1 (same ▸ List.mem_map_of_mem later)
        simp [apart]
      simp [write, List.map_congr_left others]
    · have later : key ∈ rest.map Prod.fst := by
        simpa [Ne.symm same] using inside
      simp [write, same, ih distinct.2 later]

/-- Writing under a key that is there replaces its value. -/
theorem insert_of_contains (table : Table κ β) {key : κ} (value : β) (inside : table.contains key) :
    table.insert key value =
      table.mapEntries fun k old => if k == key then value else old :=
  eq_of_entries (write_of_mem value table.keys_nodup (contains_iff.1 inside))

omit [LawfulBEq κ] in
theorem write_of_apart {key : κ} (value : β) {entries : List (κ × β)}
    (fresh : ∀ entry ∈ entries, (entry.1 == key) = false) :
    write key value entries = entries ++ [(key, value)] := by
  induction entries with
  | nil => rfl
  | cons entry rest ih =>
    obtain ⟨apart, later⟩ := List.forall_mem_cons.1 fresh
    rw [write, apart, ih later]
    rfl

/-- A new key goes to the end. -/
theorem entries_insert_of_not_contains (table : Table κ β) {key : κ} (value : β)
    (fresh : ¬ table.contains key) :
    (table.insert key value).entries = table.entries ++ [(key, value)] :=
  write_of_apart value fun entry inside => by
    cases same : (entry.1 == key)
    · rfl
    · exact absurd (eq_of_beq same ▸ contains_of_mem inside) fresh

/-- What is in a table after writing was there or has been written. -/
theorem mem_of_mem_write {key : κ} {value : β} {entries : List (κ × β)} {entry : κ × β}
    (inside : entry ∈ write key value entries) : entry = (key, value) ∨ entry ∈ entries := by
  induction entries with
  | nil => exact .inl (by simpa [write] using inside)
  | cons first rest ih =>
    obtain ⟨k, v⟩ := first
    rw [write] at inside
    split at inside
    · rename_i same
      rcases List.mem_cons.1 inside with rfl | later
      · exact .inl (by rw [eq_of_beq same])
      · exact .inr (List.mem_cons_of_mem _ later)
    · rcases List.mem_cons.1 inside with rfl | later
      · exact .inr List.mem_cons_self
      · exact (ih later).imp_right (List.mem_cons_of_mem _)

/-- What was written last under a key is found. -/
theorem get?_insert (table : Table κ β) (key : κ) (value : β) (other : κ) :
    (table.insert key value).get? other = if key == other then some value else table.get? other := by
  by_cases inside : table.contains key
  · rw [insert_of_contains table value inside, get?_mapEntries]
    by_cases same : key = other
    · subst same
      obtain ⟨old, held⟩ := Option.isSome_iff_exists.1 inside
      simp [held]
    · cases table.get? other <;> simp [same, Ne.symm same]
  · ext found
    have fresh : table.get? key = none := by simpa [contains] using inside
    rw [get?_eq_some_iff, entries_insert_of_not_contains table value inside, List.mem_append,
      List.mem_singleton, Prod.mk.injEq, ← get?_eq_some_iff]
    by_cases same : key = other
    · subst same
      simp [fresh, eq_comm]
    · simp [same, Ne.symm same]

/-! ## Tables of lists of pairs -/

omit [LawfulBEq κ] in
theorem insertAll_append (table : Table κ β) (front back : List (κ × β)) :
    table.insertAll (front ++ back) = (table.insertAll front).insertAll back :=
  List.foldl_append

omit [LawfulBEq κ] in
theorem ofList_append (pairs : List (κ × β)) (pair : κ × β) :
    ofList (pairs ++ [pair]) = (ofList pairs).insert pair.1 pair.2 :=
  insertAll_append empty pairs [pair]

/-- Of the values of one key in a list of pairs the last one stays. -/
theorem get?_ofList_last {before after : List (κ × β)} {key : κ} {value : β}
    (last : ∀ pair ∈ after, pair.1 ≠ key) :
    (ofList (before ++ (key, value) :: after)).get? key = some value := by
  induction after using List.reverseRecOn with
  | nil => rw [ofList_append, get?_insert, if_pos (by simp)]
  | append_singleton after pair ih =>
    obtain ⟨older, apart⟩ := List.forall_mem_append.1 last
    rw [← List.cons_append, ← List.append_assoc, ofList_append, get?_insert,
      if_neg (by simpa using apart), ih older]

/-- A key of the table of a list of pairs has its last value in the list. -/
theorem get?_ofList_eq_some_iff {pairs : List (κ × β)} {key : κ} {value : β} :
    (ofList pairs).get? key = some value ↔ ∃ before after,
      pairs = before ++ (key, value) :: after ∧ ∀ pair ∈ after, pair.1 ≠ key := by
  constructor
  · intro found
    induction pairs using List.reverseRecOn with
    | nil => cases found
    | append_singleton pairs pair ih =>
      rw [ofList_append, get?_insert] at found
      split at found
      · rename_i same
        cases found
        exact ⟨pairs, [], by rw [← eq_of_beq same], by simp⟩
      · rename_i other
        obtain ⟨before, after, rfl, last⟩ := ih found
        refine ⟨before, after ++ [pair], by simp, List.forall_mem_append.2 ⟨last, ?_⟩⟩
        simpa using other
  · rintro ⟨before, after, rfl, last⟩
    exact get?_ofList_last last

/-- The keys of the table of a list of pairs are those of the list. -/
theorem mem_keys_ofList {pairs : List (κ × β)} {key : κ} :
    key ∈ (ofList pairs).keys ↔ key ∈ pairs.map Prod.fst := by
  rw [← contains_iff]
  induction pairs using List.reverseRecOn with
  | nil => simp [contains, ofList, insertAll, get?]
  | append_singleton pairs pair ih =>
    rw [contains] at ih ⊢
    rw [ofList_append, get?_insert]
    by_cases same : pair.1 = key
    · simp [same]
    · simpa [same, Ne.symm same] using ih

theorem size_ofList_eq_zero_iff {pairs : List (κ × β)} : (ofList pairs).size = 0 ↔ pairs = [] := by
  have keys : (ofList pairs).keys = [] ↔ pairs.map Prod.fst = [] := by
    simp only [List.eq_nil_iff_forall_not_mem, mem_keys_ofList]
  rwa [Table.keys, List.map_eq_nil_iff, List.map_eq_nil_iff, ← List.length_eq_zero_iff] at keys

/-- What is written into a table goes before what it held. -/
theorem get?_insertAll (table : Table κ β) (pairs : List (κ × β)) (key : κ) :
    (table.insertAll pairs).get? key = ((ofList pairs).get? key).or (table.get? key) := by
  induction pairs using List.reverseRecOn with
  | nil => rfl
  | append_singleton pairs pair ih =>
    have step : table.insertAll (pairs ++ [pair]) = (table.insertAll pairs).insert pair.1 pair.2 :=
      insertAll_append table pairs [pair]
    rw [step, ofList_append, get?_insert, get?_insert]
    split
    · rfl
    · exact ih

/-- The table of a list of pairs holds pairs of the list only. -/
theorem mem_of_mem_ofList {pairs : List (κ × β)} {entry : κ × β}
    (inside : entry ∈ (ofList pairs).entries) : entry ∈ pairs := by
  induction pairs using List.reverseRecOn with
  | nil => simp [ofList, insertAll] at inside
  | append_singleton pairs pair ih =>
    rw [ofList_append] at inside
    rcases mem_of_mem_write inside with rfl | older
    · simp
    · exact List.mem_append_left _ (ih older)

omit [LawfulBEq κ] in
/-- The table of a list of pairs with different keys is this list. -/
theorem entries_ofList_of_apart {pairs : List (κ × β)}
    (distinct : (pairs.map Prod.fst).Pairwise fun a b => (a == b) = false) :
    (ofList pairs).entries = pairs := by
  induction pairs using List.reverseRecOn with
  | nil => rfl
  | append_singleton pairs pair ih =>
    rw [List.map_append, List.pairwise_append] at distinct
    have older := ih distinct.1
    rw [ofList_append, entries_insert, older]
    exact write_of_apart _ fun entry inside =>
      distinct.2.2 entry.1 (List.mem_map_of_mem inside) pair.1 (by simp)

theorem entries_ofList {pairs : List (κ × β)} (distinct : (pairs.map Prod.fst).Nodup) :
    (ofList pairs).entries = pairs :=
  entries_ofList_of_apart (distinct.imp fun apart => by simpa using apart)

theorem ofList_entries (table : Table κ β) : ofList table.entries = table :=
  eq_of_entries (entries_ofList table.keys_nodup)

/-- The table of a list of pairs is as long as the list only if no key repeats. -/
theorem nodup_of_size_ofList {pairs : List (κ × β)} (same : (ofList pairs).size = pairs.length) :
    (pairs.map Prod.fst).Nodup := by
  have among : (ofList pairs).keys ⊆ pairs.map Prod.fst := by
    intro key inside
    obtain ⟨entry, held, rfl⟩ := List.mem_map.1 inside
    exact List.mem_map_of_mem (mem_of_mem_ofList held)
  have sub := List.subperm_of_subset (ofList pairs).keys_nodup among
  have whole := sub.perm_of_length_le (by simpa [keys, size] using same.ge)
  exact whole.nodup_iff.1 (ofList pairs).keys_nodup

end

end ModuleAtlas.Table
