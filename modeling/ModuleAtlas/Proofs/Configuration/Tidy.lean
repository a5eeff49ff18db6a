import ModuleAtlas.Json.Reader
import ModuleAtlas.Proofs.Configuration.Key
import ModuleAtlas.Proofs.Table
/-!
Data as it is read: no mapping in it, at any depth, has a key twice, and its doubles are reduced
(`IsTidy`). So it is with what is read as JSON, where the last of members with one key stays
(`Json.tidy_read`).
-/
namespace ModuleAtlas.Value

mutual

/-- No mapping in the value has a key twice, and its doubles are reduced. -/
def IsTidy : Value → Prop
  | null | bool _ | int _ | text _ | bytes _ | date _ | moment _ => True
  | double d => d.IsReduced
  | list items => AreTidy items
  | set members => AreTidy members
  | pair key value => IsTidy key ∧ IsTidy value
  | map entries => KeysApart entries ∧ HaveTidy entries
termination_by structural value => value

/-- All of the values are tidy. -/
def AreTidy : List Value → Prop
  | [] => True
  | x :: xs => IsTidy x ∧ AreTidy xs
termination_by structural values => values

/-- The keys and values of all entries are tidy. -/
def HaveTidy : List (Value × Value) → Prop
  | [] => True
  | (key, x) :: rest => (IsTidy key ∧ IsTidy x) ∧ HaveTidy rest
termination_by structural entries => entries

end

theorem areTidy_iff {xs : List Value} : AreTidy xs ↔ ∀ x ∈ xs, IsTidy x := by
  induction xs with
  | nil => simp [AreTidy]
  | cons x xs ih => simp [AreTidy, ih]

theorem haveTidy_iff {entries : List (Value × Value)} :
    HaveTidy entries ↔ ∀ entry ∈ entries, IsTidy entry.1 ∧ IsTidy entry.2 := by
  induction entries with
  | nil => simp [HaveTidy]
  | cons entry rest ih =>
    obtain ⟨key, x⟩ := entry
    simp only [HaveTidy, List.forall_mem_cons, ih]

theorem IsTidy.isReduced {x : Value} (tidy : IsTidy x) : x.IsReduced := by
  cases x <;> first | exact tidy | trivial

theorem HaveTidy.haveReducedKeys {entries : List (Value × Value)} (tidy : HaveTidy entries) :
    HaveReducedKeys entries :=
  fun entry inside => (haveTidy_iff.1 tidy entry inside).1.isReduced

/-- Entries that are written one after the other make a tidy mapping. -/
theorem isTidy_entriesOf {pairs : List (Value × Value)}
    (tidy : ∀ pair ∈ pairs, IsTidy pair.1 ∧ IsTidy pair.2) : IsTidy (.map (entriesOf pairs)) := by
  have none : ∀ entry ∈ ([] : List (Value × Value)), IsTidy entry.1 ∧ IsTidy entry.2 := by simp
  exact ⟨KeysApart.writeAll .nil pairs, haveTidy_iff.2 (forall_mem_writeAll none tidy)⟩

end ModuleAtlas.Value

namespace ModuleAtlas.Json
open Value (IsTidy AreTidy HaveTidy)

/-! ## JSON -/

theorem tidy_unsigned {negative : Bool} {t rest : Text} {x : Json}
    (read : unsigned negative t = .ok (x, rest)) : IsTidy (.ofJson x) := by
  simp only [unsigned] at read
  split at read
  · cases read
  · split at read
    · rename_i written
      cases read
      rw [numberOf.eq_def] at written
      split at written
      · split at written <;> cases written
        trivial
      · cases written
        exact Double.isReduced_ofDecimal ..
    · cases read

theorem tidy_atom {t rest : Text} {x : Json} (read : atom t = .ok (x, rest)) : IsTidy (.ofJson x) := by
  rw [atom.eq_def] at read
  repeat' split at read
  all_goals first
    | exact tidy_unsigned read
    | (cases read
       trivial)

theorem ofMembers_eq_map (ms : List (Text × Json)) :
    Value.ofMembers ms = ms.map fun m => (.text m.1, .ofJson m.2) := by
  induction ms with
  | nil => rfl
  | cons m ms ih => exact congrArg _ ih

theorem tidy_object {ms : List (Text × Json)} (tidy : HaveTidy (Value.ofMembers ms)) :
    IsTidy (.ofJson (.object (Table.ofList ms).entries)) := by
  have all : ∀ m ∈ ms, IsTidy (.ofJson m.2) := by
    intro m inside
    rw [ofMembers_eq_map] at tidy
    exact (Value.haveTidy_iff.1 tidy _ (List.mem_map_of_mem inside)).2
  have whole : IsTidy (.map (Value.ofMembers (Table.ofList ms).entries)) := by
    rw [ofMembers_eq_map]
    refine ⟨?_, Value.haveTidy_iff.2 ?_⟩
    · rw [Value.KeysApart, List.pairwise_map]
      exact List.pairwise_map.1 (Table.ofList ms).distinct
    · intro entry inside
      obtain ⟨m, among, rfl⟩ := List.mem_map.1 inside
      exact ⟨trivial, all m (Table.mem_of_mem_ofList among)⟩
  exact whole

mutual

theorem tidy_value {t : Text} {x : Json} {rest : Rest t} (read : value t = .ok (x, rest)) :
    IsTidy (.ofJson x) := by
  rw [value.eq_def] at read
  split at read
  · split at read
    · cases read
      trivial
    · cases read
  · rename_i s
    have shorter := skipSpace_length s
    split at read
    · cases read
      trivial
    · split at read
      · rename_i found
        cases read
        exact tidy_elements found
      · cases read
  · rename_i s
    have shorter := skipSpace_length s
    split at read
    · cases read
      exact ⟨.nil, trivial⟩
    · split at read
      · rename_i found
        cases read
        exact tidy_object (tidy_members found)
      · cases read
  · split at read
    · rename_i found
      cases read
      exact tidy_atom found
    · cases read
termination_by (t.length, 0)
decreasing_by
  all_goals
    subst_vars
    apply Prod.Lex.left
    simp only [List.length_cons]
    omega

theorem tidy_elements {t : Text} {xs : List Json} {rest : Rest t}
    (read : elements t = .ok (xs, rest)) : AreTidy (Value.ofElements xs) := by
  rw [elements] at read
  split at read
  · cases read
  · rename_i x s shorter found
    split at read
    · cases read
      exact ⟨tidy_value found, trivial⟩
    · rename_i next comma
      have less : (skipSpace next).length < t.length := by
        have behind := skipSpace_length s
        have gap := skipSpace_length next
        rw [comma, List.length_cons] at behind
        omega
      split at read
      · rename_i more
        cases read
        exact ⟨tidy_value found, tidy_elements more⟩
      · cases read
    · cases read
termination_by (t.length, 1)
decreasing_by
  · exact Prod.Lex.right _ Nat.zero_lt_one
  · exact Prod.Lex.right _ Nat.zero_lt_one
  · exact Prod.Lex.left _ _ less

theorem tidy_members {t : Text} {ms : List (Text × Json)} {rest : Rest t}
    (read : members t = .ok (ms, rest)) : HaveTidy (Value.ofMembers ms) := by
  rw [members.eq_def] at read
  split at read
  · rename_i s
    split at read
    · cases read
    · rename_i key afterKey body
      split at read
      · rename_i inside colon
        have less : (skipSpace inside).length < s.length := by
          have named := stringBody?_length body
          have gap := skipSpace_length afterKey
          have opening := skipSpace_length inside
          rw [colon, List.length_cons] at gap
          omega
        simp only at read
        split at read
        · cases read
        · rename_i x behind shorter found
          split at read
          · cases read
            exact ⟨⟨trivial, tidy_value found⟩, trivial⟩
          · rename_i next comma
            have further : (skipSpace next).length < s.length := by
              have closing := skipSpace_length behind
              have gap := skipSpace_length next
              rw [comma, List.length_cons] at closing
              omega
            split at read
            · rename_i more
              cases read
              exact ⟨⟨trivial, tidy_value found⟩, tidy_members more⟩
            · cases read
          · cases read
      · cases read
  · cases read
termination_by (t.length, 1)
decreasing_by
  all_goals
    subst_vars
    apply Prod.Lex.left
    simp only [List.length_cons]
    omega

end

theorem tidy_read {t : Text} {x : Json} (read : Json.read t = .ok x) : IsTidy (.ofJson x) := by
  rw [Json.read] at read
  split at read
  · rename_i found
    split at read
    · cases read
      exact tidy_value found
    · cases read
  · cases read

end ModuleAtlas.Json
