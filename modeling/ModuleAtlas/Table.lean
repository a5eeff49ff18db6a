import ModuleAtlas.Text.Basic
/-!
Tables that remember the order of their keys. Writing under a key that is there keeps its
place; a new key goes to the end. The keys of a table are pairwise different, which is part of
the type, so a lookup is a matter of membership (`get?_eq_some_iff`).
-/
namespace ModuleAtlas

/-- Pairs of keys and values, each key once, in the order in which the keys first came. -/
structure Table (κ β : Type) [BEq κ] where
  entries : List (κ × β)
  distinct : (entries.map Prod.fst).Pairwise fun a b => (a == b) = false

namespace Table
variable {κ β γ : Type} [BEq κ]

/-- Writes a value under a key in a list of pairs. -/
def write (key : κ) (value : β) : List (κ × β) → List (κ × β)
  | [] => [(key, value)]
  | (k, v) :: rest => if k == key then (k, value) :: rest else (k, v) :: write key value rest

/-- Writing changes no key and adds one at the end if none is equal to it. -/
theorem keys_write (key : κ) (value : β) (entries : List (κ × β)) :
    (write key value entries).map Prod.fst =
      if (entries.map Prod.fst).any (· == key) then entries.map Prod.fst
      else entries.map Prod.fst ++ [key] := by
  induction entries with
  | nil => simp [write]
  | cons entry rest ih =>
    obtain ⟨k, v⟩ := entry
    cases same : (k == key)
    · simp only [write, same, Bool.false_eq_true, if_false, List.map_cons, ih, List.any_cons,
        Bool.false_or]
      split <;> simp
    · simp [write, same]

theorem distinct_write (key : κ) (value : β) (entries : List (κ × β))
    (distinct : (entries.map Prod.fst).Pairwise fun a b => (a == b) = false) :
    ((write key value entries).map Prod.fst).Pairwise fun a b => (a == b) = false := by
  rw [keys_write]
  split
  · exact distinct
  · rename_i fresh
    rw [List.pairwise_append]
    refine ⟨distinct, by simp, ?_⟩
    intro a inside b last
    rw [List.mem_singleton.1 last]
    cases same : (a == key)
    · rfl
    · exact absurd (List.any_eq_true.2 ⟨a, inside, same⟩) fresh

/-- The table without entries. -/
def empty : Table κ β := ⟨[], by simp⟩

instance : EmptyCollection (Table κ β) := ⟨empty⟩
instance : Inhabited (Table κ β) := ⟨empty⟩

/-- The table with `value` under `key`. -/
def insert (table : Table κ β) (key : κ) (value : β) : Table κ β :=
  ⟨write key value table.entries, distinct_write key value _ table.distinct⟩

/-- The value under a key. -/
def get? (table : Table κ β) (key : κ) : Option β :=
  (table.entries.find? fun entry => entry.1 == key).map Prod.snd

/-- Some value stands under the key. -/
def contains (table : Table κ β) (key : κ) : Bool := (table.get? key).isSome

/-- The keys in order. -/
def keys (table : Table κ β) : List κ := table.entries.map Prod.fst

/-- The values in the order of their keys. -/
def values (table : Table κ β) : List β := table.entries.map Prod.snd

/-- The number of entries. -/
def size (table : Table κ β) : Nat := table.entries.length

/-- The pairs written one after the other. -/
def insertAll (table : Table κ β) (pairs : List (κ × β)) : Table κ β :=
  pairs.foldl (fun t pair => t.insert pair.1 pair.2) table

/-- The table of a list of pairs; the last of several values under one key stays. -/
def ofList (pairs : List (κ × β)) : Table κ β := insertAll empty pairs

/-- The table with `f` applied to every value, which may look at the key. -/
def mapEntries (f : κ → β → γ) (table : Table κ β) : Table κ γ :=
  ⟨table.entries.map fun entry => (entry.1, f entry.1 entry.2), by
    have same : (table.entries.map fun entry => (entry.1, f entry.1 entry.2)).map Prod.fst
        = table.entries.map Prod.fst := by simp [Function.comp_def]
    rw [same]; exact table.distinct⟩

/-- The table with `f` applied to every value. -/
def map (f : β → γ) (table : Table κ β) : Table κ γ := table.mapEntries fun _ value => f value

/-- The table under changed keys; where keys meet, the last value stays in the first place. -/
def mapKeys {ι : Type} [BEq ι] (f : κ → ι) (table : Table κ β) : Table ι β :=
  ofList (table.entries.map fun entry => (f entry.1, entry.2))

@[simp] theorem entries_empty : (empty : Table κ β).entries = [] := rfl

@[simp] theorem entries_insert (table : Table κ β) (key : κ) (value : β) :
    (table.insert key value).entries = write key value table.entries := rfl

@[simp] theorem entries_mapEntries (f : κ → β → γ) (table : Table κ β) :
    (table.mapEntries f).entries = table.entries.map fun entry => (entry.1, f entry.1 entry.2) := rfl

/-- What a lookup finds is what the table holds under the key. -/
theorem get?_eq_some_iff [LawfulBEq κ] {table : Table κ β} {key : κ} {value : β} :
    table.get? key = some value ↔ (key, value) ∈ table.entries := by
  obtain ⟨entries, distinct⟩ := table
  simp only [get?]
  induction entries with
  | nil => simp
  | cons entry rest ih =>
    obtain ⟨k, v⟩ := entry
    have restDistinct := (List.pairwise_cons.1 distinct).2
    have fresh := (List.pairwise_cons.1 distinct).1
    by_cases same : k = key
    · subst same
      simp only [List.find?_cons, beq_self_eq_true, Option.map_some, List.mem_cons, Prod.mk.injEq,
        true_and, Option.some.injEq]
      constructor
      · exact fun here => .inl here.symm
      · rintro (here | there)
        · exact here.symm
        · have apart := fresh k (List.mem_map_of_mem there)
          simp at apart
    · have other : (k == key) = false := by simpa using same
      simp only [List.find?_cons, other, List.mem_cons, Prod.mk.injEq, Ne.symm same, false_and,
        false_or]
      exact ih restDistinct

end Table
end ModuleAtlas
