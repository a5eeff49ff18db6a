import ModuleAtlas.Proofs.Resolution.Alias
import ModuleAtlas.Resolution
/-!
Aliases in any order. Which alias counts for a specifier is told by the aliases that cover it: the
longest one, and there is no other of its length, because both open the specifier. So settings with
the same base directory and the same targets make the same of every import, in whatever order their
aliases were found (`order_immaterial`).
-/
namespace ModuleAtlas

namespace Alias
variable {specifier key : Text} {aliases : Table Text Text}

/-- The specifier is the key or goes on behind it at a slash, which may close the key itself. -/
def Covers (key specifier : Text) : Prop :=
  ∃ rest, specifier = key ++ rest ∧
    (rest = [] ∨ key.getLast? = some (.scalar '/') ∨ rest.head? = some (.scalar '/'))

theorem Covers.opens (covers : Covers key specifier) : key <+: specifier := by
  obtain ⟨rest, rfl, -⟩ := covers
  exact List.prefix_append _ _

/-- Keys of one length that cover one specifier are one key. -/
theorem Covers.unique {other : Text} (covers : Covers key specifier)
    (others : Covers other specifier) (long : key.length = other.length) : key = other :=
  (List.prefix_of_prefix_length_le covers.opens others.opens long.le).eq_of_length long

theorem applies_iff_covers : applies specifier key ↔ Covers key specifier := by
  rw [applies, Bool.or_eq_true, beq_iff_eq, Text.startsWith, List.isPrefixOf_iff_prefix]
  by_cases closed : Text.endsWith key ['/']
  · have last : key.getLast? = some (.scalar '/') := by
      obtain ⟨front, rfl⟩ := List.isSuffixOf_iff_suffix.1 closed
      simp
    rw [if_pos closed]
    constructor
    · rintro (rfl | ⟨rest, rfl⟩)
      · exact ⟨[], by simp⟩
      · exact ⟨rest, rfl, .inr (.inl last)⟩
    · exact fun covers => .inr covers.opens
  · have unclosed : key.getLast? ≠ some (.scalar '/') := by
      intro last
      obtain ⟨front, rfl⟩ := List.getLast?_eq_some_iff.1 last
      exact closed (List.isSuffixOf_iff_suffix.2 (List.suffix_append _ _))
    rw [if_neg closed]
    constructor
    · rintro (rfl | ⟨rest, rfl⟩)
      · exact ⟨[], by simp⟩
      · exact ⟨.scalar '/' :: rest, by simp, by simp⟩
    · rintro ⟨rest, rfl, nothing | last | slash⟩
      · exact .inl (by simp [nothing])
      · exact absurd last unclosed
      · obtain ⟨rest, rfl⟩ := List.head?_eq_some_iff.1 slash
        exact .inr ⟨rest, by simp⟩

/-- Which specifiers come from elsewhere does not depend on the order of the aliases. -/
theorem isExternal_of_perm {other : Table Text Text} (same : other.entries.Perm aliases.entries)
    (specifier : Text) : isExternal specifier other = isExternal specifier aliases := by
  have keys : other.keys.Perm aliases.keys := same.map Prod.fst
  rw [isExternal, isExternal, keys.any_eq]

end Alias

namespace Resolution
open Alias

/-- Settings with the same base directory and the same target for every alias. -/
structure Agree (left right : Settings) : Prop where
  base : left.baseUrl = right.baseUrl
  targets : ∀ key, left.aliases.get? key = right.aliases.get? key

section
variable {left right : Settings} (agree : Agree left right)
include agree

theorem Agree.perm : left.aliases.entries.Perm right.aliases.entries :=
  Table.perm_of_get? agree.targets

theorem Agree.resolve (specifier root directory : Text) :
    resolve specifier left root directory = resolve specifier right root directory := by
  simp only [Resolution.resolve, aliasBase, agree.base, best?_of_perm agree.perm, agree.targets]

/-- The imports of a source text have the same targets, and fail for the same cause. -/
theorem Agree.targets_eq (files : FileSystem) (content directory root : Text) :
    Resolution.targets files content directory root left =
      Resolution.targets files content directory root right := by
  simp only [Resolution.targets, ownSpecifiers, relativePath, isExternal_of_perm agree.perm,
    agree.resolve]

end

/-- No alias counts for a specifier exactly if none covers it, and otherwise the one that is longer
than all others that cover it; no two of these are of one length. So settings that agree in base
directory and targets let the same alias count, leave the same specifiers to packages from elsewhere
and give every import the same path and the same target, whatever the order of their aliases. -/
theorem order_immaterial (specifier : Text) (aliases : Table Text Text) :
    (best? specifier aliases = none ↔
      ∀ key ∈ aliases.keys, key ≠ [] → ¬ Covers key specifier) ∧
    (∀ key, best? specifier aliases = some key ↔
      (key ∈ aliases.keys ∧ key ≠ [] ∧ Covers key specifier) ∧
        ∀ other ∈ aliases.keys, other ≠ [] → Covers other specifier → other ≠ key →
          other.length < key.length) ∧
    (∀ key other, Covers key specifier → Covers other specifier → key.length = other.length →
      key = other) ∧
    ∀ left right, Agree left right →
      best? specifier left.aliases = best? specifier right.aliases ∧
      isExternal specifier left.aliases = isExternal specifier right.aliases ∧
      (∀ root directory,
        resolve specifier left root directory = resolve specifier right root directory) ∧
      ∀ files content directory root,
        targets files content directory root left = targets files content directory root right := by
  refine ⟨?_, fun key => ?_, fun _ _ one other => one.unique other, fun left right agree => ?_⟩
  · simp only [best?_eq_none_iff, applies_iff_covers]
  · simp only [best?_eq_some_iff, applies_iff_covers]
    constructor
    · rintro ⟨inside, named, covers, longest⟩
      refine ⟨⟨inside, named, covers⟩, fun other among some fits apart => ?_⟩
      refine Nat.lt_of_le_of_ne (longest other among some fits) fun long => apart ?_
      exact fits.unique covers long
    · rintro ⟨⟨inside, named, covers⟩, longer⟩
      refine ⟨inside, named, covers, fun other among some fits => ?_⟩
      by_cases same : other = key
      · rw [same]
      · exact (longer other among some fits same).le
  · exact ⟨best?_of_perm agree.perm, isExternal_of_perm agree.perm specifier, agree.resolve specifier,
      agree.targets_eq⟩

/-- Two aliases in the order in which a compiler configuration has them. -/
def outerFirst : Settings where
  baseUrl := "src"
  aliases := Table.ofList [("@ui", "ui"), ("@ui/core/", "/core"), ("", "nowhere")]
  source := some ("tsconfig.json" : Text)

/-- The same aliases in the opposite order, from elsewhere. -/
def innerFirst : Settings where
  baseUrl := "src"
  aliases := Table.ofList [("", "nowhere"), ("@ui/core/", "/core"), ("@ui", "ui")]

/-- The longer alias counts, whichever comes first. -/
theorem innerFirst_immaterial : Agree outerFirst innerFirst ∧
    resolve "@ui/core/list" outerFirst "/work/app" "/work/app/x" = ("/core/list" : Text) ∧
    resolve "@ui/core/list" innerFirst "/work/app" "/work/app/x" = ("/core/list" : Text) := by
  have agree : Agree outerFirst innerFirst := by
    refine ⟨rfl, fun key => Table.get?_eq_of_perm ?_ key⟩
    decide
  have here : resolve "@ui/core/list" outerFirst "/work/app" "/work/app/x" = ("/core/list" : Text) := by
    decide
  obtain ⟨-, -, same, -⟩ :=
    (order_immaterial "@ui/core/list" outerFirst.aliases).2.2.2 outerFirst innerFirst agree
  exact ⟨agree, here, (same "/work/app" "/work/app/x").symm.trans here⟩

end Resolution
end ModuleAtlas
