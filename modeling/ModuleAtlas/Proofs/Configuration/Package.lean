import ModuleAtlas.Proofs.Configuration.Decision
import ModuleAtlas.Proofs.Resolution.Alias
/-!
Name mappings of tests. A mapping whose target opens with the project root is an alias of the rest
of the target, and like all relative targets it is looked up from the base directory. So when a
package file has the last word, a mapping leads below the project root if what the scripts tried
before it show as the base directory is the project root; and only then, unless what is mapped takes
steps upwards (`mapping_resolved`).
-/
namespace ModuleAtlas.Configuration
open ModuleAtlas.Path ModuleAtlas.Resolution

/-- A name mapping of tests with a capture at its end: what stands below `key` is looked up below
`target`, which is meant from the project root. -/
structure NameMapping where
  key : Text
  target : Text
  named : key ≠ []
  bare : IsBare key
  unclosed : key.getLast? ≠ some (.scalar '/')
  uncaptured : ¬ Text.endsWith key "(.*)$"
  directed : target ≠ []
  relative : ¬ isAbsolute target

namespace NameMapping

/-- The entry of the mapping. -/
def entry (mapping : NameMapping) : Value × Value :=
  (.text (.scalar '^' :: (mapping.key ++ "/(.*)$")), .text ("<rootDir>/" ++ (mapping.target ++ "/$1")))

/-- Anchor, root and captures are dropped. -/
theorem mapperAlias_entry (mapping : NameMapping) :
    mapperAlias (.scalar '^' :: (mapping.key ++ "/(.*)$")) ("<rootDir>/" ++ (mapping.target ++ "/$1")) =
      (mapping.key, mapping.target) := by
  have opened (t : Text) :
      (if (.scalar '^' :: t).head? == some (.scalar '^') then
        (.scalar '^' :: t).drop 1 else .scalar '^' :: t) = t := rfl
  have whole : Text.dropTail mapping.key "(.*)$" = mapping.key := by
    rw [Text.dropTail]
    exact if_neg mapping.uncaptured
  rw [mapperAlias, opened, Text.dropTail_append, whole, Text.replaceFirst, Text.cutAt?_append]
  exact congrArg (Prod.mk mapping.key) (Text.dropTail_append mapping.target "/$1")

theorem mapperAliases_append (before after : List (Value × Value)) :
    mapperAliases (some (.map (before ++ after))) =
      mapperAliases (some (.map before)) ++ mapperAliases (some (.map after)) := by
  simp [mapperAliases, Value.textEntries]

/-- Where the entry of the mapping is listed, its alias is. -/
theorem mapperAliases_entry (mapping : NameMapping) (before after : List (Value × Value)) :
    mapperAliases (some (.map (before ++ mapping.entry :: after))) =
      mapperAliases (some (.map before)) ++
        (mapping.key, mapping.target) :: mapperAliases (some (.map after)) := by
  have single : mapperAliases (some (.map [mapping.entry])) = [(mapping.key, mapping.target)] := by
    simp only [mapperAliases, Value.textEntries, entry, List.filterMap_cons, List.filterMap_nil,
      List.map_cons, List.map_nil, mapperAlias_entry]
    simp [mapping.named, mapping.directed]
  rw [mapperAliases_append, ← List.singleton_append, mapperAliases_append, single,
    List.singleton_append]

end NameMapping

/-- The name of a package file. -/
def packageFile : Text := "package.json"

/-- The last candidate is the package file, and no other one is. -/
theorem candidates_package {before after : List (Text × Kind)} {kind : Kind}
    (split : candidates = before ++ (packageFile, kind) :: after) :
    before = candidates.dropLast ∧ kind = .package := by
  have whole : candidates = candidates.dropLast ++ [(packageFile, .package)] := rfl
  have others : ∀ candidate ∈ candidates.dropLast, candidate.1 ≠ packageFile := by decide
  rw [whole] at split
  rcases List.eq_nil_or_concat after with rfl | ⟨init, last, rfl⟩
  · obtain ⟨front, same⟩ := List.append_inj' split rfl
    cases same
    exact ⟨front.symm, rfl⟩
  · rw [List.concat_eq_append, ← List.cons_append, ← List.append_assoc] at split
    have front := (List.append_inj' split rfl).1
    exact absurd rfl (others (packageFile, kind) (by simp [front]))

variable {files : FileSystem} {root : Text} {settings : Settings} {notices : List Notice}
  {entries : List (Value × Value)}

/-- What a package file brings when it has the last word. -/
theorem load_package (loaded : load files root = .ok (settings, notices))
    (source : settings.source = some packageFile)
    (document : document? files (child root packageFile) = .ok (some entries)) :
    settings.baseUrl = (settingsBehind files root candidates.dropLast {}).baseUrl ∧
      settings.aliases = (settingsBehind files root candidates.dropLast {}).aliases.insertAll
        (packageAliases entries).entries := by
  cases decides_of_search rfl loaded source with
  | document split passed there read applied =>
    obtain ⟨rfl, rfl⟩ := candidates_package split
    cases document.symm.trans read
    cases applied
    exact ⟨rfl, rfl⟩

/-- A mapping that no later one overrides is an alias of its target. -/
theorem get?_packageAliases {before after : List (Value × Value)} (mapping : NameMapping)
    (listed : (Value.lookup? entries "jest").bind (·.member? "moduleNameMapper") =
      some (.map (before ++ mapping.entry :: after)))
    (last : ∀ pair ∈ mapperAliases (some (.map after)), pair.1 ≠ mapping.key) :
    (packageAliases entries).get? mapping.key = some mapping.target := by
  rw [packageAliases, listed, mapping.mapperAliases_entry, ← List.append_assoc]
  exact Table.get?_ofList_last last

/-- A mapping leads below its target from the base directory that the scripts show. This is below
the project root, from which it is meant, if the base directory comes to the project root, and if
what is mapped takes no steps upwards, it is not otherwise. -/
theorem mapping_resolved (loaded : load files root = .ok (settings, notices))
    (source : settings.source = some packageFile)
    (document : document? files (child root packageFile) = .ok (some entries))
    {before after : List (Value × Value)} {mapping : NameMapping}
    (listed : (Value.lookup? entries "jest").bind (·.member? "moduleNameMapper") =
      some (.map (before ++ mapping.entry :: after)))
    (last : ∀ pair ∈ mapperAliases (some (.map after)), pair.1 ≠ mapping.key)
    {rest : Text} (alone : ∀ key ∈ settings.aliases.keys, key ≠ [] → key ≠ mapping.key →
      ¬ Alias.applies (mapping.key ++ .scalar '/' :: rest) key) (directory : Text) :
    let base := (settingsBehind files root candidates.dropLast {}).baseUrl
    let resolved := resolve (mapping.key ++ .scalar '/' :: rest) settings root directory
    let meant := normalize (join root (mapping.target ++ .scalar '/' :: rest))
    resolved = normalize (join (join root base) (mapping.target ++ .scalar '/' :: rest)) ∧
    (normalize (join root base) = normalize root → resolved = meant) ∧
    (AreNames (segments (mapping.target ++ .scalar '/' :: rest)) → resolved = meant →
      normalize (join root base) = normalize root) := by
  obtain ⟨baseUrl, aliases⟩ := load_package loaded source document
  have leads : settings.aliases.get? mapping.key = some mapping.target := by
    rw [aliases, Table.get?_insertAll, Table.ofList_entries, get?_packageAliases mapping listed last,
      Option.some_or]
  have held : mapping.key ∈ settings.aliases.keys :=
    List.mem_map_of_mem (Table.get?_eq_some_iff.1 leads)
  have applied : Alias.applies (mapping.key ++ .scalar '/' :: rest) mapping.key :=
    (Alias.applies_iff mapping.unclosed).2 (.inr ⟨rest, rfl⟩)
  have best : Alias.best? (mapping.key ++ .scalar '/' :: rest) settings.aliases = some mapping.key := by
    refine Alias.best?_eq_some_iff.2 ⟨held, mapping.named, applied, fun key inside some applies => ?_⟩
    by_cases same : key = mapping.key
    · rw [same]
    · exact absurd applies (alone key inside some same)
  have bare : IsBare (mapping.key ++ .scalar '/' :: rest) := by
    rw [IsBare, List.head?_append_of_ne_nil _ mapping.named]
    exact mapping.bare
  have relative : ¬ isAbsolute (mapping.target ++ .scalar '/' :: rest) := by
    rw [isAbsolute_append mapping.directed]
    exact mapping.relative
  have leading := resolve_below_alias bare root directory rfl best leads mapping.directed
    mapping.relative
  rw [baseUrl] at leading
  refine ⟨leading, fun same => leading.trans (normalize_join_congr relative same), ?_⟩
  exact fun names same => normalize_join_cancel relative names (leading.symm.trans same)

/-- The mapping of `ui` to `lib`. -/
def uiMapping : NameMapping :=
  { key := "ui", target := "lib", named := by decide, bare := by decide, unclosed := by decide
    uncaptured := by decide, directed := by decide, relative := by decide }

/-- A bundler configuration and a package file with this mapping. -/
def bundlerText : Text := "module.exports = \x7b baseUrl: 'src' \x7d"

def packageText : Text :=
  "\x7b\"jest\": \x7b\"moduleNameMapper\": \x7b\"^ui/(.*)$\": \"<rootDir>/lib/$1\"\x7d\x7d\x7d"

/-- A project with these two files. -/
def bundled : FileSystem where
  tree :=
    { entries :=
        [(["p"], .directory), (["p", "webpack.config.js"], .file (Text.utf8 bundlerText)),
          (["p", packageFile], .file (Text.utf8 packageText))]
      distinct := by decide
      named := by decide
      housed := by decide }

/-- The settings of this project. -/
def bundledSettings : Settings :=
  { baseUrl := "src", aliases := Table.ofList [(uiMapping.key, uiMapping.target)]
    source := some packageFile }

/-- The mapping is meant to lead to `/p/lib`, and it leads to `/p/src/lib`. -/
theorem bundled_resolved :
    load bundled "/p" = .ok (bundledSettings, [.configured packageFile "src" 1]) ∧
      resolve "ui/button" bundledSettings "/p" "/p" = ("/p/src/lib/button" : Text) ∧
      resolve "ui/button" bundledSettings "/p" "/p" ≠ normalize (join "/p" "lib/button") := by
  have loaded : load bundled "/p" = .ok (bundledSettings, [.configured packageFile "src" 1]) := by cbv
  have document : document? bundled (child "/p" packageFile) =
      .ok (some [(.text "jest", .map [(.text "moduleNameMapper", .map [uiMapping.entry])])]) := by cbv
  have base : (settingsBehind bundled "/p" candidates.dropLast {}).baseUrl = "src" := by decide +kernel
  have leads := @mapping_resolved bundled "/p" _ _ _ loaded rfl document [] [] uiMapping rfl
    (by simp [mapperAliases, Value.textEntries]) "button" (by decide +kernel) "/p"
  rw [base] at leads
  have names : AreNames (segments (uiMapping.target ++ .scalar '/' :: ("button" : Text))) :=
    fun name inside =>
    isName_of_isEntryName ((by decide : ∀ name ∈ [("lib" : Text), "button"], isEntryName name) name
      inside)
  refine ⟨loaded, leads.1.trans (by decide +kernel), fun same => ?_⟩
  exact absurd (leads.2.2 names same) (by decide +kernel)

end ModuleAtlas.Configuration
