import ModuleAtlas.Configuration.Aliases
import ModuleAtlas.Proofs.Resolution.Alias
/-!
Path patterns with a wildcard at their end. The aliases that they are read as do what the patterns
say: what the wildcard of the longest pattern that matches stands for is put in the place of the
wildcard in its first target, from the base directory, and a specifier that matches no pattern is
looked up from there as it is (`wildcards_substituted`).
-/
namespace ModuleAtlas.Configuration
open ModuleAtlas.Path Resolution

/-- A path pattern with a wildcard at its end: what stands below `key` is looked up below `target`.
Further targets do not count. -/
structure Wildcard where
  key : Text
  target : Text
  others : List Value := []
  named : key ≠ []
  bare : IsBare key
  unclosed : key.getLast? ≠ some (.scalar '/')
  directed : target ≠ []
  relative : ¬ isAbsolute target

namespace Wildcard

/-- The entry of the pattern. -/
def entry (pattern : Wildcard) : Value × Value :=
  (.text (pattern.key ++ "/*"), .list (.text (pattern.target ++ "/*") :: pattern.others))

/-- The specifier stands below the key of the pattern. -/
def Matches (pattern : Wildcard) (specifier : Text) : Prop :=
  pattern.key ++ [.scalar '/'] <+: specifier

instance (pattern : Wildcard) (specifier : Text) : Decidable (pattern.Matches specifier) :=
  inferInstanceAs (Decidable (_ <+: _))

/-- The settings with path patterns. -/
def settings (baseUrl : Text) (source : Option Text) (patterns : List Wildcard) : Settings :=
  { baseUrl, aliases := pathAliases (.map (patterns.map entry)), source }

/-- Both wildcards are dropped. -/
theorem pathAlias?_entry (pattern : Wildcard) :
    pathAlias? pattern.entry = some (pattern.key, pattern.target) := by
  have key : Text.dropTail (pattern.key ++ "/*") "/*" = pattern.key := Text.dropTail_append _ _
  have target : Text.dropTail (pattern.target ++ "/*") "/*" = pattern.target := Text.dropTail_append _ _
  simp only [entry, pathAlias?, key, target]
  simp [pattern.named]

section
variable {patterns : List Wildcard} (distinct : (patterns.map key).Nodup)
include distinct

theorem entries_pathAliases : (pathAliases (.map (patterns.map entry))).entries =
    patterns.map fun pattern => (pattern.key, pattern.target) := by
  have read : (patterns.map entry).filterMap pathAlias? =
      patterns.map fun pattern => (pattern.key, pattern.target) := by
    rw [List.filterMap_map]
    exact (List.filterMap_congr fun pattern _ => pathAlias?_entry pattern).trans
      (congrFun List.filterMap_eq_map _)
  rw [pathAliases, read]
  apply Table.entries_ofList
  rwa [List.map_map]

theorem mem_keys_iff {key : Text} :
    key ∈ (pathAliases (.map (patterns.map entry))).keys ↔ ∃ pattern ∈ patterns, pattern.key = key := by
  rw [Table.keys, entries_pathAliases distinct, List.map_map]
  exact List.mem_map

theorem get?_key {pattern : Wildcard} (inside : pattern ∈ patterns) :
    (pathAliases (.map (patterns.map entry))).get? pattern.key = some pattern.target := by
  rw [Table.get?_eq_some_iff, entries_pathAliases distinct]
  exact List.mem_map_of_mem (f := fun pattern : Wildcard => (pattern.key, pattern.target)) inside

end

/-- The key of a pattern applies to what the pattern matches, and to itself. -/
theorem applies_key_iff (pattern : Wildcard) {specifier : Text} (other : specifier ≠ pattern.key) :
    Alias.applies specifier pattern.key ↔ pattern.Matches specifier := by
  rw [Alias.applies_iff pattern.unclosed, or_iff_right other, Matches, List.IsPrefix]
  simp [eq_comm]

end Wildcard

open Wildcard in
/-- Path patterns with wildcards, however they are ordered. For a bare specifier that is no key
itself, the wildcard of the longest pattern that matches is substituted in the first target of the
pattern, and a specifier that matches no pattern is taken as it is, both from the base directory. -/
theorem wildcards_substituted {patterns : List Wildcard} (distinct : (patterns.map key).Nodup)
    {specifier : Text} (bare : IsBare specifier) (other : ∀ pattern ∈ patterns, specifier ≠ pattern.key)
    (baseUrl : Text) (source : Option Text) (root directory : Text) :
    (∀ pattern ∈ patterns, ∀ rest : Text, specifier = pattern.key ++ .scalar '/' :: rest →
      (∀ rival ∈ patterns, rival.Matches specifier → rival.key.length ≤ pattern.key.length) →
      resolve specifier (settings baseUrl source patterns) root directory =
        normalize (join (join root baseUrl) (pattern.target ++ .scalar '/' :: rest))) ∧
    ((∀ pattern ∈ patterns, ¬ pattern.Matches specifier) →
      resolve specifier (settings baseUrl source patterns) root directory =
        normalize (join (join root baseUrl) specifier)) ∧
    ∀ reordered : List Wildcard, reordered.Perm patterns →
      resolve specifier (settings baseUrl source reordered) root directory =
        resolve specifier (settings baseUrl source patterns) root directory := by
  refine ⟨?_, ?_, ?_⟩
  · intro pattern inside rest below longest
    have best : Alias.best? specifier (settings baseUrl source patterns).aliases = some pattern.key := by
      refine Alias.best?_eq_some_iff.2 ⟨(mem_keys_iff distinct).2 ⟨pattern, inside, rfl⟩,
        pattern.named, (Alias.applies_iff pattern.unclosed).2 (.inr ⟨rest, below⟩), ?_⟩
      intro key held _ applied
      obtain ⟨rival, among, rfl⟩ := (mem_keys_iff distinct).1 held
      exact longest rival among ((rival.applies_key_iff (other rival among)).1 applied)
    exact resolve_below_alias bare root directory below best (get?_key distinct inside)
      pattern.directed pattern.relative
  · intro none
    refine resolve_without_alias bare root directory (Alias.best?_eq_none_iff.2 ?_)
    intro key held _ applied
    obtain ⟨pattern, among, rfl⟩ := (mem_keys_iff distinct).1 held
    exact none pattern among ((pattern.applies_key_iff (other pattern among)).1 applied)
  · intro reordered same
    refine resolve_of_perm ?_ specifier root directory
    rw [entries_pathAliases distinct,
      entries_pathAliases ((same.map key).nodup_iff.2 distinct)]
    exact same.map _

/-- Patterns that overlap: below `@ui/core` the longer one counts. -/
def overlapping : List Wildcard :=
  [{ key := "@ui", target := "src/ui", named := by decide, bare := by decide
     unclosed := by decide, directed := by decide, relative := by decide },
   { key := "@ui/core", target := "../core/", others := [.text "old/*", .null]
     named := by decide, bare := by decide, unclosed := by decide, directed := by decide
     relative := by decide }]

theorem overlapping_substituted :
    resolve "@ui/core//a/../b" (Wildcard.settings "lib" none overlapping) "/work/app" "/work/app/x" =
      ("/work/app/core/b" : Text) := by
  have substituted := (@wildcards_substituted overlapping (by decide) "@ui/core//a/../b"
    ⟨by decide, by decide⟩ (by decide) "lib" none "/work/app" "/work/app/x").1
  exact substituted _ (List.mem_cons_of_mem _ List.mem_cons_self) "/a/../b" rfl (by decide)

end ModuleAtlas.Configuration
