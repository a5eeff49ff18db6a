import ModuleAtlas.Json.Basic
import ModuleAtlas.Number.Reading
/-!
JSON values whose numbers are integers and whose strings have no surrogates. A proof about all values
goes from the elements of an array and the members of an object to the whole (`induction_on`). A value
with integers only, in which no object has a key twice, is the same data as itself (`same_self`), which
a number that is none is not.
-/
namespace ModuleAtlas.Json

/-- What holds of a value whenever it holds of all elements and members of it holds of all values. -/
theorem induction_on {P : Json → Prop} (null : P .null) (bool : ∀ b, P (.bool b))
    (int : ∀ n, P (.int n)) (double : ∀ d, P (.double d)) (string : ∀ t, P (.string t))
    (array : ∀ xs, (∀ x ∈ xs, P x) → P (.array xs))
    (object : ∀ ms, (∀ m ∈ ms, P m.2) → P (.object ms)) (value : Json) : P value := by
  refine @Json.rec P (fun xs => ∀ x ∈ xs, P x) (fun ms => ∀ m ∈ ms, P m.2) (fun m => P m.2)
    null bool int double string array object ?_ ?_ ?_ ?_ ?_ value
  · simp
  · intro x xs here later
    exact List.forall_mem_cons.2 ⟨here, later⟩
  · simp
  · intro m ms here later
    exact List.forall_mem_cons.2 ⟨here, later⟩
  · intro key x here
    exact here

mutual

/-- The numbers of the value are integers with as many digits at most as integers are read with, no
string has a surrogate, and no object has a key twice. -/
def IsIntegral : Json → Prop
  | null | bool _ => True
  | string t => t.IsScalar
  | int n => (Text.ofNat n.natAbs).length ≤ Number.digitLimit
  | double _ => False
  | array xs => AreIntegral xs
  | object ms => (ms.map Prod.fst).Nodup ∧ HasIntegral ms
termination_by structural value => value

/-- All of the values are integral. -/
def AreIntegral : List Json → Prop
  | [] => True
  | x :: xs => IsIntegral x ∧ AreIntegral xs
termination_by structural values => values

/-- The values of all members are integral, and no key has a surrogate. -/
def HasIntegral : List (Text × Json) → Prop
  | [] => True
  | (key, x) :: ms => (key.IsScalar ∧ IsIntegral x) ∧ HasIntegral ms
termination_by structural members => members

end

theorem areIntegral_iff {xs : List Json} : AreIntegral xs ↔ ∀ x ∈ xs, IsIntegral x := by
  induction xs with
  | nil => simp [AreIntegral]
  | cons x xs ih => simp [AreIntegral, ih]

theorem hasIntegral_iff {ms : List (Text × Json)} :
    HasIntegral ms ↔ ∀ m ∈ ms, m.1.IsScalar ∧ IsIntegral m.2 := by
  induction ms with
  | nil => simp [HasIntegral]
  | cons m ms ih => simp [HasIntegral, ih]

@[simp] theorem isIntegral_array {xs : List Json} :
    IsIntegral (array xs) ↔ ∀ x ∈ xs, IsIntegral x := by
  rw [IsIntegral, areIntegral_iff]

@[simp] theorem isIntegral_object {ms : List (Text × Json)} :
    IsIntegral (object ms) ↔
      (ms.map Prod.fst).Nodup ∧ ∀ m ∈ ms, m.1.IsScalar ∧ IsIntegral m.2 := by
  rw [IsIntegral, hasIntegral_iff]

@[simp] theorem isIntegral_string {t : Text} : IsIntegral (string t) ↔ t.IsScalar := Iff.rfl

@[simp] theorem isIntegral_bool (b : Bool) : IsIntegral (bool b) := trivial

/-! ## Members under different keys -/

theorem mem_of_member? {ms : List (Text × Json)} {key : Text} {x : Json}
    (found : member? ms key = some x) : (key, x) ∈ ms := by
  obtain ⟨entry, here, rfl⟩ := Option.map_eq_some_iff.1 found
  have same : entry.1 = key := by simpa using List.find?_some here
  rw [← same]
  exact List.mem_of_find?_eq_some here

theorem member?_of_mem {ms : List (Text × Json)} (distinct : (ms.map Prod.fst).Nodup)
    {m : Text × Json} (inside : m ∈ ms) : member? ms m.1 = some m.2 := by
  induction ms with
  | nil => simp at inside
  | cons first ms ih =>
    obtain ⟨fresh, distinct⟩ := List.nodup_cons.1 distinct
    rcases List.mem_cons.1 inside with rfl | later
    · simp [member?]
    · have apart : first.1 ≠ m.1 := fun same => fresh (same ▸ List.mem_map_of_mem later)
      have other : (first.1 == m.1) = false := by simpa using apart
      have found := ih distinct later
      rw [member?] at found ⊢
      rw [List.find?_cons, other]
      exact found

/-! ## The same data -/

theorem sameElements_self {xs : List Json} (each : ∀ x ∈ xs, same x x) : sameElements xs xs := by
  induction xs with
  | nil => rfl
  | cons x xs ih =>
    rw [sameElements, each x (by simp), ih fun x inside => each x (by simp [inside])]
    rfl

theorem sameMembers_of_subset {ms all : List (Text × Json)} (distinct : (all.map Prod.fst).Nodup)
    (among : ms ⊆ all) (each : ∀ m ∈ ms, same m.2 m.2) : sameMembers ms all := by
  induction ms with
  | nil => rfl
  | cons m ms ih =>
    obtain ⟨key, x⟩ := m
    have here := member?_of_mem distinct (among (by simp : (key, x) ∈ (key, x) :: ms))
    have later := ih (fun m inside => among (by simp [inside])) fun m inside => each m (by simp [inside])
    simp only at here
    rw [sameMembers, here, later]
    simpa using each (key, x) (by simp)

theorem same_self {value : Json} (integral : IsIntegral value) : same value value := by
  induction value using induction_on with
  | null => rfl
  | bool b => cases b <;> rfl
  | int n => simp [same, sameInteger]
  | double d => exact absurd integral (by simp [IsIntegral])
  | string t => simp [same]
  | array xs ih =>
    rw [isIntegral_array] at integral
    exact sameElements_self fun x inside => ih x inside (integral x inside)
  | object ms ih =>
    rw [isIntegral_object] at integral
    have members := sameMembers_of_subset integral.1 (List.Subset.refl ms) fun m inside =>
      ih m inside (integral.2 m inside).2
    simp [same, members]

end ModuleAtlas.Json
