import ModuleAtlas.Configuration.Value
import ModuleAtlas.Proofs.Number.Reduced
/-!
Keys of mappings. What two keys have to have in common to be the same is what they stand for
(`sameKey_iff`), so being the same is an equivalence among keys that are read. Of the entries that are
written one after the other, the last one under a key is found (`under?_writeAll`).
-/
namespace ModuleAtlas.Value

/-! ## What keys stand for -/

/-- What a key stands for: numbers are what counts of numbers, whatever kind they are of. -/
inductive Sense
  | null
  | number (q : ℚ)
  | infinite (negative : Bool)
  | nan
  | text (t : Text)
  | bytes (bs : List UInt8)
  | date (d : Date)
  | moment (located : Bool) (instant : Int)

/-- What a double stands for. -/
def senseOf : Double → Sense
  | .finite a m e => .number (Double.quantity a m e)
  | .infinite a => .infinite a
  | .nan => .nan

/-- What a value stands for as a key, if it can be one that is found again. -/
def sense? : Value → Option Sense
  | null => some .null
  | bool b => some (.number (if b then 1 else 0 : Int))
  | int n => some (.number n)
  | double d => some (senseOf d)
  | text t => some (.text t)
  | bytes bs => some (.bytes bs)
  | date d => some (.date d)
  | moment m => some (.moment m.offset.isSome m.instant)
  | list _ => none
  | pair _ _ => none
  | set _ => none
  | map _ => none

/-- If the value is a double, it is one that can be read. -/
def IsReduced : Value → Prop
  | double d => d.IsReduced
  | _ => True

theorem same_iff_senseOf {a b : Double} (first : a.IsReduced) (second : b.IsReduced) :
    a.same b = true ↔ senseOf a = senseOf b := by
  cases a with
  | finite a m e =>
    cases b with
    | finite b n f => simp [Double.same_finite_iff first second, senseOf]
    | infinite b => simp [Double.same, senseOf]
    | nan => simp [Double.same, senseOf]
  | infinite a => cases b <;> simp [Double.same, senseOf]
  | nan => cases b <;> simp [Double.same, senseOf]

theorem isInt_iff_senseOf {d : Double} {n : Int} : d.isInt n = true ↔ senseOf d = .number n := by
  cases d with
  | finite a m e => simp [Double.isInt_finite_iff, senseOf]
  | infinite a => simp [Double.isInt, senseOf]
  | nan => simp [Double.isInt, senseOf]

/-- What a double stands for nothing else stands for but numbers. -/
theorem senseOf_ne (d : Double) :
    senseOf d ≠ .null ∧ (∀ t, senseOf d ≠ .text t) ∧ (∀ bs, senseOf d ≠ .bytes bs) ∧
      (∀ day, senseOf d ≠ .date day) ∧ ∀ located instant, senseOf d ≠ .moment located instant := by
  cases d <;> simp [senseOf]

/-- Two keys are the same exactly if they stand for the same. -/
theorem sameKey_iff {a b : Value} (first : a.IsReduced) (second : b.IsReduced) :
    sameKey a b = true ↔ ∃ sense, a.sense? = some sense ∧ b.sense? = some sense := by
  -- Doubles may be the same as doubles and as integers; the other kinds keep to themselves.
  cases a <;> cases b <;>
    simp only [sameKey, keyInteger?, sense?, Option.map_some, Option.map_none, Option.getD_some,
      Option.getD_none, isInt_iff_senseOf, Bool.false_eq_true, beq_iff_eq, Option.some.injEq,
      exists_eq_left', Sense.number.injEq, Sense.text.injEq, Sense.bytes.injEq, Sense.date.injEq,
      Sense.moment.injEq, Int.cast_inj, reduceCtorEq, and_false, false_and, exists_false]
  case double.double => exact (same_iff_senseOf first second).trans eq_comm
  case moment.moment =>
    simp only [Moment.same, Bool.and_eq_true, beq_iff_eq]
    exact and_congr eq_comm eq_comm
  all_goals first
    | exact eq_comm
    | simp [senseOf_ne, @eq_comm Sense _ (senseOf _)]

/-- Keys that are the same are the same as the same keys. -/
theorem sameKey_congr {a b c : Value} (first : a.IsReduced) (second : b.IsReduced)
    (third : c.IsReduced) (same : sameKey a b = true) : sameKey a c = sameKey b c := by
  obtain ⟨sense, here, there⟩ := (sameKey_iff first second).1 same
  have equal : sameKey a c = true ↔ sameKey b c = true := by
    rw [sameKey_iff first third, sameKey_iff second third, here, there]
  exact Bool.eq_iff_iff.2 equal

theorem sameKey_comm {a b : Value} (first : a.IsReduced) (second : b.IsReduced) :
    sameKey a b = sameKey b a := by
  have equal : sameKey a b = true ↔ sameKey b a = true := by
    rw [sameKey_iff first second, sameKey_iff second first]
    simp only [and_comm]
  exact Bool.eq_iff_iff.2 equal

/-! ## Values under keys -/

/-- The value under a key of any kind. -/
def under? (entries : List (Value × Value)) (key : Value) : Option Value :=
  (entries.find? fun entry => sameKey entry.1 key).map Prod.snd

theorem under?_cons (k v : Value) (entries : List (Value × Value)) (key : Value) :
    under? ((k, v) :: entries) key = if sameKey k key then some v else under? entries key := by
  rw [under?, List.find?_cons]
  cases sameKey k key <;> rfl

/-- All keys can be read. -/
def HaveReducedKeys (entries : List (Value × Value)) : Prop := ∀ entry ∈ entries, entry.1.IsReduced

/-- No two entries have the same key. -/
def KeysApart (entries : List (Value × Value)) : Prop :=
  entries.Pairwise fun a b => sameKey a.1 b.1 = false

/-- Entries written one after the other into others. -/
def writeAll (entries more : List (Value × Value)) : List (Value × Value) :=
  more.foldl (fun entries pair => writeEntry pair.1 pair.2 entries) entries

theorem entriesOf_append (front back : List (Value × Value)) :
    entriesOf (front ++ back) = writeAll (entriesOf front) back := List.foldl_append

/-! ## Writing -/

section
variable {k v key : Value} {entries more : List (Value × Value)}

/-- What holds of the keys and values that are there and of those that are written holds after
writing. -/
theorem forall_mem_writeEntry {P Q : Value → Prop} (here : P k) (value : Q v)
    (all : ∀ entry ∈ entries, P entry.1 ∧ Q entry.2) :
    ∀ entry ∈ writeEntry k v entries, P entry.1 ∧ Q entry.2 := by
  induction entries with
  | nil => exact List.forall_mem_singleton.2 ⟨here, value⟩
  | cons entry rest ih =>
    obtain ⟨⟨key, old⟩, later⟩ := List.forall_mem_cons.1 all
    rw [writeEntry]
    split
    · exact List.forall_mem_cons.2 ⟨⟨key, value⟩, later⟩
    · exact List.forall_mem_cons.2 ⟨⟨key, old⟩, ih later⟩

theorem forall_mem_writeAll {P Q : Value → Prop} (all : ∀ entry ∈ entries, P entry.1 ∧ Q entry.2)
    (new : ∀ entry ∈ more, P entry.1 ∧ Q entry.2) :
    ∀ entry ∈ writeAll entries more, P entry.1 ∧ Q entry.2 := by
  induction more generalizing entries with
  | nil => exact all
  | cons pair more ih =>
    obtain ⟨⟨here, value⟩, later⟩ := List.forall_mem_cons.1 new
    exact ih (forall_mem_writeEntry here value all) later

theorem HaveReducedKeys.writeEntry (reduced : HaveReducedKeys entries) (first : k.IsReduced) :
    HaveReducedKeys (writeEntry k v entries) := by
  have all := forall_mem_writeEntry (Q := fun _ => True) (v := v) first trivial
    fun entry inside => ⟨reduced entry inside, trivial⟩
  exact fun entry inside => (all entry inside).1

theorem under?_writeEntry (reduced : HaveReducedKeys entries) (first : k.IsReduced)
    (second : key.IsReduced) :
    under? (writeEntry k v entries) key = if sameKey k key then some v else under? entries key := by
  induction entries with
  | nil => exact under?_cons k v [] key
  | cons entry rest ih =>
    obtain ⟨l, w⟩ := entry
    obtain ⟨here, later⟩ := List.forall_mem_cons.1 reduced
    rw [Value.writeEntry]
    by_cases same : sameKey l k = true
    · rw [if_pos same, under?_cons, under?_cons, sameKey_congr here first second same]
      split <;> rfl
    · rw [if_neg same, under?_cons, under?_cons, ih later]
      by_cases found : sameKey l key = true
      · have other : sameKey k key ≠ true := by
          intro both
          refine same ?_
          rw [sameKey_congr here second first found, sameKey_comm second first, both]
        simp [found, other]
      · simp [found]

/-- Writing keeps the keys apart. -/
theorem KeysApart.writeEntry (apart : KeysApart entries) : KeysApart (writeEntry k v entries) := by
  induction entries with
  | nil => exact List.pairwise_singleton _ _
  | cons entry rest ih =>
    obtain ⟨fresh, later⟩ := List.pairwise_cons.1 apart
    rw [Value.writeEntry]
    split
    · exact List.pairwise_cons.2 ⟨fresh, later⟩
    · rename_i other
      have others := forall_mem_writeEntry (P := fun l => sameKey entry.1 l = false)
        (Q := fun _ => True) (v := v) (Bool.eq_false_iff.2 other) trivial
        fun e inside => ⟨fresh e inside, trivial⟩
      exact List.pairwise_cons.2 ⟨fun e inside => (others e inside).1, ih later⟩

theorem KeysApart.writeAll (apart : KeysApart entries) (more : List (Value × Value)) :
    KeysApart (writeAll entries more) := by
  induction more generalizing entries with
  | nil => exact apart
  | cons pair more ih => exact ih apart.writeEntry

/-- Among entries with different keys no second one is under the key of the first. -/
theorem under?_eq_none_of_apart (fresh : ∀ entry ∈ entries, sameKey k entry.1 = false)
    (reduced : HaveReducedKeys entries) (first : k.IsReduced) (second : key.IsReduced)
    (same : sameKey k key = true) : under? entries key = none := by
  rw [under?, Option.map_eq_none_iff, List.find?_eq_none]
  intro entry inside found
  have other := fresh entry inside
  rw [sameKey_congr first second (reduced entry inside) same,
    sameKey_comm second (reduced entry inside), found] at other
  cases other

/-- Of entries that are written into others, what is written is found first. -/
theorem under?_writeAll (old : HaveReducedKeys entries) (new : HaveReducedKeys more)
    (apart : KeysApart more) (second : key.IsReduced) :
    under? (writeAll entries more) key = (under? more key).or (under? entries key) := by
  induction more generalizing entries with
  | nil => rfl
  | cons pair more ih =>
    obtain ⟨first, later⟩ := List.forall_mem_cons.1 new
    obtain ⟨fresh, others⟩ := List.pairwise_cons.1 apart
    have behind := ih (old.writeEntry (v := pair.2) first) later others
    have written : writeAll entries (pair :: more) = writeAll (writeEntry pair.1 pair.2 entries) more :=
      rfl
    rw [written, behind, under?_writeEntry old first second, under?_cons]
    by_cases same : sameKey pair.1 key = true
    · rw [under?_eq_none_of_apart fresh later first second same]
      simp [same]
    · simp [same]

end
end ModuleAtlas.Value
