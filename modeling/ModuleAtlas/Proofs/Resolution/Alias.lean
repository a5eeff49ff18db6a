import ModuleAtlas.Proofs.Path.Joined
import ModuleAtlas.Proofs.Table
import ModuleAtlas.Resolution
/-!
What an alias makes of the specifiers below it. The longest alias that applies counts, and there is
only one of its length, since all that apply open the specifier (`best?_eq_some_iff`). With a
relative target it stands for the way from the base directory along the target and then along what
the specifier has behind it, just as a specifier to which none applies stands for the way from the
base directory along the whole of it (`resolve_below_alias`, `resolve_without_alias`).
-/
namespace ModuleAtlas

/-! ## The alias that counts -/

namespace Alias
variable {specifier key : Text} {aliases : Table Text Text}

theorem opens_of_applies (applied : applies specifier key) : key <+: specifier := by
  rw [applies, Bool.or_eq_true] at applied
  rcases applied with same | below
  · obtain rfl := eq_of_beq same
    exact List.prefix_rfl
  · rw [Text.startsWith, List.isPrefixOf_iff_prefix] at below
    refine List.IsPrefix.trans ?_ below
    split
    · exact List.prefix_rfl
    · exact List.prefix_append _ _

/-- An alias without a slash at its end applies to itself and to what stands below it. -/
theorem applies_iff (plain : key.getLast? ≠ some (.scalar '/')) :
    applies specifier key ↔ specifier = key ∨ ∃ rest : Text, specifier = key ++ .scalar '/' :: rest := by
  have unclosed : Text.endsWith key ['/'] = false := by
    rw [Bool.eq_false_iff, ne_eq, Text.endsWith, List.isSuffixOf_iff_suffix]
    rintro ⟨front, rfl⟩
    simp at plain
  rw [applies, unclosed, Bool.or_eq_true, beq_iff_eq, Text.startsWith, List.isPrefixOf_iff_prefix]
  refine or_congr_right (exists_congr fun rest => ?_)
  simp [eq_comm]

theorem foldl_longer {keys : List Text} {first : Option Text} {best : Text}
    (found : keys.foldl longer first = some best) :
    (first = some best ∨ best ∈ keys) ∧
      (∀ b, first = some b → b.length ≤ best.length) ∧ ∀ key ∈ keys, key.length ≤ best.length := by
  induction keys generalizing first with
  | nil =>
    cases found
    exact ⟨.inl rfl, fun b same => by cases same; exact Nat.le_refl _, by simp⟩
  | cons key keys ih =>
    obtain ⟨origin, ahead, later⟩ := ih found
    cases first with
    | none =>
      have here := ahead key rfl
      refine ⟨.inr ?_, by simp, List.forall_mem_cons.2 ⟨here, later⟩⟩
      rcases origin with same | inside
      · cases same
        exact List.mem_cons_self
      · exact List.mem_cons_of_mem _ inside
    | some b =>
      by_cases shorter : b.length < key.length
      · have step : longer (some b) key = some key := by simp [longer, shorter]
        rw [step] at origin ahead
        have here := ahead key rfl
        refine ⟨.inr ?_, ?_, List.forall_mem_cons.2 ⟨here, later⟩⟩
        · rcases origin with same | inside
          · cases same
            exact List.mem_cons_self
          · exact List.mem_cons_of_mem _ inside
        · rintro _ ⟨⟩
          omega
      · have step : longer (some b) key = some b := by simp [longer, shorter]
        rw [step] at origin ahead
        have here : key.length ≤ best.length := (Nat.not_lt.1 shorter).trans (ahead b rfl)
        refine ⟨origin.imp_right (List.mem_cons_of_mem _), ahead, ?_⟩
        exact List.forall_mem_cons.2 ⟨here, later⟩

theorem foldl_longer_isSome (keys : List Text) (b : Text) :
    ∃ best, keys.foldl longer (some b) = some best := by
  induction keys generalizing b with
  | nil => exact ⟨b, rfl⟩
  | cons key keys ih =>
    rw [List.foldl_cons, longer]
    split
    · exact ih key
    · exact ih b

/-- The aliases among which the longest is looked for. -/
theorem mem_applying (specifier : Text) (aliases : Table Text Text) (key : Text) :
    key ∈ (aliases.keys.filter fun key => !key.isEmpty && applies specifier key) ↔
      key ∈ aliases.keys ∧ key ≠ [] ∧ applies specifier key := by
  simp

/-- Of the aliases that apply the longest one counts, whatever their order. -/
theorem best?_eq_some_iff : best? specifier aliases = some key ↔
    key ∈ aliases.keys ∧ key ≠ [] ∧ applies specifier key ∧
      ∀ other ∈ aliases.keys, other ≠ [] → applies specifier other → other.length ≤ key.length := by
  have known := mem_applying specifier aliases
  rw [best?]
  generalize (aliases.keys.filter fun key => !key.isEmpty && applies specifier key) = keys at known
  constructor
  · intro found
    obtain ⟨origin, -, most⟩ := foldl_longer found
    obtain ⟨inside, named, applied⟩ := (known key).1 (origin.resolve_left (by simp))
    refine ⟨inside, named, applied, fun other held some fits => ?_⟩
    exact most other ((known other).2 ⟨held, some, fits⟩)
  · rintro ⟨inside, named, applied, longest⟩
    have among := (known key).2 ⟨inside, named, applied⟩
    obtain ⟨best, found⟩ : ∃ best, keys.foldl longer none = some best := by
      cases keys with
      | nil => simp at among
      | cons first keys => exact foldl_longer_isSome keys first
    obtain ⟨origin, -, most⟩ := foldl_longer found
    obtain ⟨held, some, fits⟩ := (known best).1 (origin.resolve_left (by simp))
    -- Both open the specifier, and they are of one length.
    have short := longest best held some fits
    have front := List.prefix_of_prefix_length_le (opens_of_applies fits)
      (opens_of_applies applied) short
    rw [found, front.eq_of_length (Nat.le_antisymm short (most key among))]

theorem best?_eq_none_iff : best? specifier aliases = none ↔
    ∀ key ∈ aliases.keys, key ≠ [] → ¬ applies specifier key := by
  have known := mem_applying specifier aliases
  rw [best?]
  generalize (aliases.keys.filter fun key => !key.isEmpty && applies specifier key) = keys at known
  cases keys with
  | nil =>
    refine iff_of_true rfl fun key inside named applied => ?_
    exact absurd ((known key).2 ⟨inside, named, applied⟩) (by simp)
  | cons first keys =>
    obtain ⟨best, found⟩ := foldl_longer_isSome keys first
    have here := (known first).1 List.mem_cons_self
    refine iff_of_false ?_ fun none => none first here.1 here.2.1 here.2.2
    rw [List.foldl_cons, longer, found]
    simp

theorem best?_of_perm {other : Table Text Text} (same : other.entries.Perm aliases.entries) :
    best? specifier other = best? specifier aliases := by
  have keys : ∀ key, key ∈ other.keys ↔ key ∈ aliases.keys := fun key => (same.map Prod.fst).mem_iff
  ext key
  rw [best?_eq_some_iff, best?_eq_some_iff]
  simp only [keys]

end Alias

/-! ## What specifiers stand for -/

namespace Resolution
open ModuleAtlas.Path

/-- The specifier is neither relative nor absolute. -/
def IsBare (specifier : Text) : Prop :=
  specifier.head? ≠ some (.scalar '.') ∧ specifier.head? ≠ some (.scalar '/')

instance (specifier : Text) : Decidable (IsBare specifier) := inferInstanceAs (Decidable (_ ∧ _))

/-- A relative target leads on from the base directory. -/
theorem aliasBase_of_relative (settings : Settings) (root : Text) {target : Text}
    (relative : ¬ isAbsolute target) :
    aliasBase settings root target = join (join root settings.baseUrl) target := by
  rw [aliasBase, if_neg relative]
  split
  · rename_i nothing
    rw [List.isEmpty_iff.1 nothing, join_join_nil root relative]
  · rfl

section
variable {settings : Settings} {specifier : Text} (bare : IsBare specifier) (root directory : Text)
include bare

/-- A bare specifier below the alias that counts for it. -/
theorem resolve_below_alias {key target rest : Text} (below : specifier = key ++ .scalar '/' :: rest)
    (best : Alias.best? specifier settings.aliases = some key)
    (leads : settings.aliases.get? key = some target) (some : target ≠ [])
    (relative : ¬ isAbsolute target) :
    resolve specifier settings root directory =
      normalize (join (join root settings.baseUrl) (target ++ .scalar '/' :: rest)) := by
  have remainder :
      (specifier.drop key.length).dropWhile (· == .scalar '/') = rest.dropWhile (· == .scalar '/') := by
    rw [below, List.drop_left]
    rfl
  rw [resolve, if_neg (by simpa using bare.1), if_neg (by simpa using bare.2), best]
  dsimp only
  rw [leads, Option.getD_some, aliasBase_of_relative settings root relative, remainder]
  exact normalize_join_below some relative _ rest

/-- A bare specifier to which no alias applies. -/
theorem resolve_without_alias (best : Alias.best? specifier settings.aliases = none) :
    resolve specifier settings root directory =
      normalize (join (join root settings.baseUrl) specifier) := by
  have relative : ¬ isAbsolute specifier := by simpa [isAbsolute] using bare.2
  rw [resolve, if_neg (by simpa using bare.1), if_neg (by simpa using bare.2), best]
  dsimp only
  split
  · rename_i nothing
    rw [List.isEmpty_iff.1 nothing, join_join_nil root relative]
  · rfl

end

/-- What a specifier stands for does not depend on the order of the aliases. -/
theorem resolve_of_perm {baseUrl : Text} {source : Option Text} {left right : Table Text Text}
    (same : left.entries.Perm right.entries) (specifier root directory : Text) :
    resolve specifier { baseUrl, aliases := left, source } root directory =
      resolve specifier { baseUrl, aliases := right, source } root directory := by
  simp only [resolve, aliasBase, Alias.best?_of_perm same, Table.get?_eq_of_perm same]

end Resolution
end ModuleAtlas
