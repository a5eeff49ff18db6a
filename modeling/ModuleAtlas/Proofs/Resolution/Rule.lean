import ModuleAtlas.Proofs.Outcome
import ModuleAtlas.Proofs.Resolution.AliasOrder
/-!
The rules by which specifiers are resolved, of which exactly one is for each specifier
(`follows_unique`, `exists_follows`). Which specifiers name packages from elsewhere is told before
any rule is looked for, and yet it fits the rules: what is scoped or of a single segment is left to
packages exactly if only a fallback would be for it (`filter_fits_rules`).
-/
namespace ModuleAtlas

namespace Alias
variable {specifier : Text} {aliases : Table Text Text}

/-- The specifier has the form of the name of a package: it is scoped or a single segment. -/
def NamesPackage (specifier : Text) : Prop :=
  specifier.head? = some (.scalar '@') ∨ .scalar '/' ∉ specifier

instance (specifier : Text) : Decidable (NamesPackage specifier) :=
  inferInstanceAs (Decidable (_ ∨ _))

/-- No alias is tried that would not count, nor is one left out. -/
theorem any_applies_iff :
    (aliases.keys.any fun key => !key.isEmpty && applies specifier key) = true ↔
      best? specifier aliases ≠ none := by
  rw [ne_eq, best?_eq_none_iff]
  simp

theorem isExternal_iff : isExternal specifier aliases ↔
    Resolution.IsBare specifier ∧ NamesPackage specifier ∧ best? specifier aliases = none := by
  have tried := @any_applies_iff specifier aliases
  rw [isExternal, Resolution.IsBare, NamesPackage]
  by_cases dot : specifier.head? = some (.scalar '.')
  · simp [dot]
  by_cases slash : specifier.head? = some (.scalar '/')
  · simp [slash]
  by_cases atSign : specifier.head? = some (.scalar '@')
  · cases found : best? specifier aliases <;> simp_all
  · by_cases segments : .scalar '/' ∈ specifier
    · simp [dot, slash, atSign, segments]
    · cases found : best? specifier aliases <;> simp_all

end Alias

namespace Resolution
open Alias ModuleAtlas.Path

/-! ## Rules -/

/-- The rules by which specifiers are resolved. -/
inductive Rule
  /-- From the directory of the importing file. -/
  | relative
  /-- From the project root. -/
  | absolute
  /-- Along the target of an alias. -/
  | aliased (key target : Text)
  /-- From the directory that the settings name for bare specifiers. -/
  | based
  /-- From the project root, for want of such a directory. -/
  | rooted

namespace Rule

/-- The rule is for bare specifiers that no alias covers. -/
def IsFallback : Rule → Prop
  | based | rooted => True
  | relative | absolute | aliased .. => False

/-- Where the rule leads. -/
def path (settings : Settings) (root directory specifier : Text) : Rule → Text
  | relative => normalize (join directory specifier)
  | absolute => normalize (join root (specifier.dropWhile (· == .scalar '/')))
  | aliased key target =>
    let base := aliasBase settings root target
    let remainder := (specifier.drop key.length).dropWhile (· == .scalar '/')
    normalize (if remainder.isEmpty then base else join base remainder)
  | based => normalize (join (join root settings.baseUrl) specifier)
  | rooted => normalize (join root specifier)

end Rule

/-- No alias of the settings covers the specifier. -/
def IsUncovered (settings : Settings) (specifier : Text) : Prop :=
  ∀ key ∈ settings.aliases.keys, key ≠ [] → ¬ Covers key specifier

/-- The alias covers the specifier, and no longer one does. -/
structure IsLongest (settings : Settings) (specifier key target : Text) : Prop where
  leads : settings.aliases.get? key = some target
  named : key ≠ []
  covers : Covers key specifier
  longest : ∀ other ∈ settings.aliases.keys, other ≠ [] → Covers other specifier →
    other.length ≤ key.length

section
variable (settings : Settings) (specifier : Text)

/-- Which rule is for a specifier. -/
inductive Follows : Rule → Prop
  | relative (dot : specifier.head? = some (.scalar '.')) : Follows .relative
  | absolute (slash : specifier.head? = some (.scalar '/')) : Follows .absolute
  | aliased {key target : Text} (bare : IsBare specifier)
    (counts : IsLongest settings specifier key target) : Follows (.aliased key target)
  | based (bare : IsBare specifier) (uncovered : IsUncovered settings specifier)
    (base : settings.baseUrl ≠ []) : Follows .based
  | rooted (bare : IsBare specifier) (uncovered : IsUncovered settings specifier)
    (noBase : settings.baseUrl = []) : Follows .rooted

end

section
variable {settings : Settings} {specifier : Text}

theorem isUncovered_iff :
    IsUncovered settings specifier ↔ best? specifier settings.aliases = none := by
  simp only [IsUncovered, best?_eq_none_iff, applies_iff_covers]

theorem isLongest_iff {key target : Text} : IsLongest settings specifier key target ↔
    best? specifier settings.aliases = some key ∧ settings.aliases.get? key = some target := by
  simp only [best?_eq_some_iff, applies_iff_covers]
  constructor
  · intro counts
    have held : key ∈ settings.aliases.keys :=
      List.mem_map_of_mem (Table.get?_eq_some_iff.1 counts.leads)
    exact ⟨⟨held, counts.named, counts.covers, counts.longest⟩, counts.leads⟩
  · rintro ⟨⟨-, named, covers, longest⟩, leads⟩
    exact ⟨leads, named, covers, longest⟩

theorem IsLongest.covered {key target : Text} (counts : IsLongest settings specifier key target) :
    ¬ IsUncovered settings specifier := fun uncovered =>
  uncovered key (List.mem_map_of_mem (Table.get?_eq_some_iff.1 counts.leads)) counts.named counts.covers

/-- Some rule is for every specifier. -/
theorem exists_follows (settings : Settings) (specifier : Text) :
    ∃ rule, Follows settings specifier rule := by
  by_cases dot : specifier.head? = some (.scalar '.')
  · exact ⟨_, .relative dot⟩
  by_cases slash : specifier.head? = some (.scalar '/')
  · exact ⟨_, .absolute slash⟩
  have bare : IsBare specifier := ⟨dot, slash⟩
  cases best : best? specifier settings.aliases with
  | some key =>
    obtain ⟨held, -⟩ := best?_eq_some_iff.1 best
    obtain ⟨⟨_, target⟩, inside, rfl⟩ := List.mem_map.1 held
    exact ⟨_, .aliased bare (isLongest_iff.2 ⟨best, Table.get?_eq_some_iff.2 inside⟩)⟩
  | none =>
    have uncovered := isUncovered_iff.2 best
    by_cases base : settings.baseUrl = []
    · exact ⟨_, .rooted bare uncovered base⟩
    · exact ⟨_, .based bare uncovered base⟩

/-- No two rules are for one specifier. -/
theorem follows_unique {rule other : Rule} (follows : Follows settings specifier rule)
    (also : Follows settings specifier other) : other = rule := by
  cases follows with
  | relative | absolute => cases also <;> grind [IsBare]
  | aliased _ counts =>
    cases also with
    | aliased _ rival =>
      obtain ⟨best, leads⟩ := isLongest_iff.1 counts
      obtain ⟨best', leads'⟩ := isLongest_iff.1 rival
      cases best.symm.trans best'
      cases leads.symm.trans leads'
      rfl
    | relative | absolute => grind [IsBare]
    | based _ uncovered | rooted _ uncovered => exact absurd uncovered counts.covered
  | based | rooted => cases also <;> grind [IsBare, IsLongest.covered]

/-- A specifier is resolved by the rule that is for it. -/
theorem resolve_eq_path {rule : Rule} (follows : Follows settings specifier rule)
    (root directory : Text) :
    resolve specifier settings root directory = rule.path settings root directory specifier := by
  cases follows with
  | relative dot => rw [resolve, if_pos (by simp [dot]), Rule.path]
  | absolute slash => rw [resolve, if_neg (by simp [slash]), if_pos (by simp [slash]), Rule.path]
  | aliased bare counts =>
    obtain ⟨best, leads⟩ := isLongest_iff.1 counts
    rw [resolve, if_neg (by simpa using bare.1), if_neg (by simpa using bare.2), best]
    simp only [leads, Option.getD_some, Rule.path]
  | based bare uncovered base =>
    rw [resolve, if_neg (by simpa using bare.1), if_neg (by simpa using bare.2),
      isUncovered_iff.1 uncovered]
    exact if_neg (by simpa using base)
  | rooted bare uncovered noBase =>
    rw [resolve, if_neg (by simpa using bare.1), if_neg (by simpa using bare.2),
      isUncovered_iff.1 uncovered]
    exact if_pos (by simp [noBase])

/-- A fallback is for bare specifiers without an alias only. -/
theorem Follows.fallback {rule : Rule} (follows : Follows settings specifier rule)
    (fallback : rule.IsFallback) :
    IsBare specifier ∧ best? specifier settings.aliases = none := by
  cases follows with
  | relative | absolute | aliased => cases fallback
  | based bare uncovered | rooted bare uncovered => exact ⟨bare, isUncovered_iff.1 uncovered⟩

/-! ## The filter -/

theorem mem_ownSpecifiers {content : Text} (kept : specifier ∈ ownSpecifiers content settings) :
    ¬ isExternal specifier settings.aliases := by
  simpa using (List.mem_filter.1 kept).2

/-- What is not external is kept each time it is imported. -/
theorem count_ownSpecifiers (content : Text) (own : ¬ isExternal specifier settings.aliases) :
    (ownSpecifiers content settings).count specifier =
      (Source.specifiers content).count specifier :=
  List.count_filter (by simpa using own)

end

/-- A specifier is left to packages from elsewhere exactly if it is bare, has the form of the name of
a package and no alias counts for it. So no specifier is dropped for which an alias counts. Each of
those that are kept leads where the one rule that is for it leads, its target completes this path,
and if it has the form of the name of a package then the rule is no fallback. -/
theorem filter_fits_rules :
    (∀ specifier aliases, isExternal specifier aliases ↔
      IsBare specifier ∧ NamesPackage specifier ∧ best? specifier aliases = none) ∧
    ∀ (content : Text) (settings : Settings),
      (∀ specifier, best? specifier settings.aliases ≠ none →
        (ownSpecifiers content settings).count specifier =
          (Source.specifiers content).count specifier) ∧
      ∀ (files : FileSystem) (directory root : Text) (found : List Text),
        targets files content directory root settings = .ok found →
        List.Forall₂ (fun specifier target =>
          let current := Place.path files.current
          let base := absolute current root
          ∃ rule, Follows settings specifier rule ∧
            (∀ other, Follows settings specifier other → other = rule) ∧
            complete files base Discovery.sourceExtensions
              (relative current (rule.path settings base (join base directory) specifier) base) =
                .ok target ∧
            (NamesPackage specifier → ¬ rule.IsFallback))
          (ownSpecifiers content settings) found := by
  refine ⟨fun _ _ => isExternal_iff, fun content settings => ⟨?_, ?_⟩⟩
  · intro specifier counts
    exact count_ownSpecifiers content fun external => counts (isExternal_iff.1 external).2.2
  · intro files directory root found run
    have kept : ∀ specifier ∈ ownSpecifiers content settings,
        ¬ isExternal specifier settings.aliases := fun _ => mem_ownSpecifiers
    have each := (List.forall₂_and_left _ _).2 ⟨kept, forall₂_of_mapM run⟩
    refine each.imp fun specifier target ⟨own, completed⟩ => ?_
    obtain ⟨rule, follows⟩ := exists_follows settings specifier
    refine ⟨rule, follows, fun _ also => follows_unique follows also, ?_, fun package fallback => ?_⟩
    · rw [← resolve_eq_path follows]
      exact completed
    · obtain ⟨bare, none⟩ := follows.fallback fallback
      exact own (isExternal_iff.2 ⟨bare, package, none⟩)

/-- Settings with the empty alias, one that ends with a slash and one that is a whole specifier. -/
def oddAliases : Settings where
  aliases := Table.ofList [("", "x"), ("@ui/", "ui"), ("react", "vendor/react")]

/-- Imports along two of the aliases, from the own directory, along a path, and of two packages. -/
def oddImports : Text :=
  "import a from '@ui/list'\nimport b from 'react'\nimport c from '.'\n" ++
    "import d from 'lib/util'\nimport e from '@scope/pkg'\nimport f from 'vue'"

theorem oddImports_fit :
    (targets { tree := .empty } oddImports "src" "/app" oddAliases =
        .ok ["ui/list", "vendor/react", "src", "lib/util"] ∧
      best? "react" oddAliases.aliases ≠ none) ∧
    (ownSpecifiers oddImports oddAliases).count ("react" : Text) =
      (Source.specifiers oddImports).count ("react" : Text) ∧
    List.Forall₂ (fun specifier _ => NamesPackage specifier →
        ∃ rule, Follows oddAliases specifier rule ∧ ¬ rule.IsFallback)
      (ownSpecifiers oddImports oddAliases)
      (["ui/list", "vendor/react", "src", "lib/util"] : List Text) := by
  have run : targets { tree := .empty } oddImports "src" "/app" oddAliases =
      .ok ["ui/list", "vendor/react", "src", "lib/util"] := by decide +kernel
  have counts : best? "react" oddAliases.aliases ≠ none := by decide +kernel
  obtain ⟨kept, ruled⟩ := filter_fits_rules.2 oddImports oddAliases
  refine ⟨⟨run, counts⟩, kept "react" counts, (ruled { tree := .empty } "src" "/app" _ run).imp ?_⟩
  rintro specifier target ⟨rule, follows, -, -, bound⟩ package
  exact ⟨rule, follows, bound package⟩

end Resolution
end ModuleAtlas
