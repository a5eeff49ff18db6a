import ModuleAtlas.Proofs.Configuration.Decision
import ModuleAtlas.Proofs.FileTree.Untouched
/-!
Which configuration files have a say in the settings of a project, and in what. The first document
that counts has the last word, over what the scripts in front of it show (`Settles`). Nothing but
these files and the chain of configurations that the document extends is looked at, so whatever is
changed elsewhere, behind it or not, the settings stay what they are (`load_settles`).
-/
namespace ModuleAtlas.Configuration
open ModuleAtlas.Path

variable {files other : FileSystem} {root p : Text}

/-! ## What scripts show -/

section
variable (files) (root) (candidates : List (Text × Kind))

/-- The text without comments of a candidate that is a script, if it is there and has one. -/
def scriptText? (candidate : Text × Kind) : Option Text :=
  let p := child root candidate.1
  match candidate.2, files.isFile p, content? files p with
  | .script, .ok true, .ok (some content) => some (withoutComments content)
  | _, _, _ => none

/-- The aliases that scripts among the candidates show, one script after the other. -/
def shownAliases : List (Text × Text) :=
  (candidates.filterMap (scriptText? files root)).flatMap scriptAliases

/-- The base directories that scripts among the candidates show, one script after the other. -/
def shownBases : List Text :=
  (candidates.filterMap (scriptText? files root)).filterMap (Text.first? (Text.anywhere baseSetting?))

/-- The last of them, or no base directory. -/
def lastBase : Text := (shownBases files root candidates).getLast?.getD []

end

theorem settingsAfter_eq (candidate : Text × Kind) (settings : Settings) :
    settingsAfter files (child root candidate.1) candidate.2 settings =
      match scriptText? files root candidate with
      | some t => { settings with
          baseUrl := (Text.first? (Text.anywhere baseSetting?) t).getD settings.baseUrl
          aliases := settings.aliases.insertAll (scriptAliases t) }
      | none => settings := by
  obtain ⟨name, kind⟩ := candidate
  simp only [settingsAfter, scriptText?]
  cases kind with
  | script =>
    rcases files.isFile (child root name) with fault | _ | _ <;>
      rcases content? files (child root name) with fault | _ | _ <;> rfl
  | compiler | transpiler | package => rfl

/-- Settings behind candidates: the last base directory shown counts, and all aliases do. -/
theorem settingsBehind_eq (candidates : List (Text × Kind)) (settings : Settings) :
    settingsBehind files root candidates settings = { settings with
      baseUrl := (shownBases files root candidates).getLast?.getD settings.baseUrl
      aliases := settings.aliases.insertAll (shownAliases files root candidates) } := by
  induction candidates generalizing settings with
  | nil => rfl
  | cons first rest ih =>
    have behind : settingsBehind files root (first :: rest) settings = settingsBehind files root rest
        (settingsAfter files (child root first.1) first.2 settings) := rfl
    rw [behind, ih, settingsAfter_eq]
    cases shown : scriptText? files root first with
    | none => simp [shownBases, shownAliases, shown]
    | some t =>
      cases base : Text.first? (Text.anywhere baseSetting?) t with
      | none => simp [shownBases, shownAliases, shown, base, Table.insertAll]
      | some base => simp [shownBases, shownAliases, shown, base, Table.insertAll, List.getLast?_cons]

/-! ## What comes of a search -/

section
variable (files) (root)

/-- The document at a path brings a base directory, or none, and aliases of its own. -/
inductive Brings (p : Text) (entries : List (Value × Value)) :
    Kind → Option Text → Table Text Text → Prop
  | compiler {options : List (Value × Value)}
    (told : compilerOptions files p entries = .ok options) :
    Brings p entries .compiler (some (Value.textOrEmpty (Value.lookup? options "baseUrl")))
      (pathAliases ((Value.lookup? options "paths").getD .null))
  | transpiler : Brings p entries .transpiler none (resolverAliases entries)
  | package : Brings p entries .package none (packageAliases entries)

variable (candidates : List (Text × Kind))

/-- No document among the candidates counts. -/
def NoneCounts : Prop :=
  ∀ candidate ∈ candidates, ∀ entries, ¬ Counts files (child root candidate.1) candidate.2 entries

/-- A candidate is the first one whose document counts. -/
structure IsFirst (before : List (Text × Kind)) (name : Text) (kind : Kind)
    (after : List (Text × Kind)) (entries : List (Value × Value)) : Prop where
  split : candidates = before ++ (name, kind) :: after
  passed : NoneCounts files root before
  counts : Counts files (child root name) kind entries

/-- What the settings are. The first document that counts gives its name, its own base directory if it
is a compiler configuration, and its aliases over those of the scripts in front of it. If none
counts, all scripts have their say, and the default base directory is inferred exactly if they show
neither a base directory nor an alias and it is there. -/
inductive Settles : Settings → Prop
  | document {before after : List (Text × Kind)} {name : Text} {kind : Kind}
    {entries : List (Value × Value)} {base : Option Text} {aliases : Table Text Text}
    (first : IsFirst files root candidates before name kind after entries)
    (brings : Brings files (child root name) entries kind base aliases) :
    Settles { source := some name
              aliases := Table.ofList (shownAliases files root before ++ aliases.entries)
              baseUrl := base.getD (lastBase files root before) }
  | inferred (none : NoneCounts files root candidates)
    (noBase : lastBase files root candidates = [])
    (noAliases : shownAliases files root candidates = [])
    (there : files.isDirectory (child root defaultBase) = .ok true) :
    Settles { baseUrl := defaultBase }
  | shown (none : NoneCounts files root candidates)
    (other : ¬ (lastBase files root candidates = [] ∧ shownAliases files root candidates = [] ∧
      files.isDirectory (child root defaultBase) = .ok true)) :
    Settles { aliases := Table.ofList (shownAliases files root candidates)
              baseUrl := lastBase files root candidates }

end

theorem brings_of_apply {kind : Kind} {entries : List (Value × Value)} {settings found : Settings}
    (other : kind ≠ .script) (applied : apply files p kind entries settings = .ok found) :
    ∃ base aliases, Brings files p entries kind base aliases ∧ found = { settings with
      baseUrl := base.getD settings.baseUrl
      aliases := settings.aliases.insertAll aliases.entries } := by
  cases kind with
  | script => exact absurd rfl other
  | compiler =>
    obtain ⟨options, told, rfl⟩ := map_eq_ok.1 applied
    exact ⟨_, _, .compiler told, rfl⟩
  | transpiler =>
    cases applied
    exact ⟨_, _, .transpiler, rfl⟩
  | package =>
    cases applied
    exact ⟨_, _, .package, rfl⟩

section
variable {candidates : List (Text × Kind)} {settings found : Settings} {notices : List Notice}

/-- No document counts among candidates that give way. -/
theorem noneCounts_of_givesWay
    (passed : ∀ candidate ∈ candidates, GivesWay files (child root candidate.1) candidate.2) :
    NoneCounts files root candidates := fun candidate listed _ => (passed candidate listed).not_counts

/-- Where no document counts, the scripts and the default base directory settle the matter. -/
theorem settles_of_withDefault (none : NoneCounts files root candidates)
    (run : withDefault files root (settingsBehind files root candidates {}) = .ok found) :
    Settles files root candidates found := by
  have bare : (lastBase files root candidates).isEmpty &&
        (Table.ofList (shownAliases files root candidates)).size == 0 ↔
      lastBase files root candidates = [] ∧ shownAliases files root candidates = [] := by
    rw [Bool.and_eq_true, List.isEmpty_iff, beq_iff_eq, Table.size_ofList_eq_zero_iff]
  rw [settingsBehind_eq, withDefault] at run
  split at run
  · rename_i nothing
    obtain ⟨noBase, noAliases⟩ := bare.1 nothing
    split at run
    · cases run
    · rename_i isDirectory checked
      cases run
      cases isDirectory with
      | true =>
        rw [noAliases]
        exact .inferred none noBase noAliases checked
      | false =>
        refine .shown none fun there => ?_
        cases checked.symm.trans there.2.2
  · rename_i something
    cases run
    exact .shown none fun nothing => something (bare.2 ⟨nothing.1, nothing.2.1⟩)

theorem settles_of_search (run : search files root candidates {} = .ok (found, notices)) :
    Settles files root candidates found := by
  rcases search_cases run with ⟨_, _, _, _, _, _, split, passed, counts, taken, rfl⟩ |
    ⟨passed, default⟩
  · obtain ⟨base, aliases, brings, rfl⟩ := brings_of_apply counts.document taken
    rw [settingsBehind_eq, ← Table.insertAll_append]
    exact .document ⟨split, noneCounts_of_givesWay passed, counts⟩ brings
  · exact settles_of_withDefault (noneCounts_of_givesWay passed) default

end

/-! ## Changes elsewhere -/

/-- The path that a configuration names as the one it extends: if it is relative, then from where the
configuration stands, with or without its extension. -/
def extendsPath? (p : Text) (entries : List (Value × Value)) : Option Text :=
  match Value.lookup? entries "extends" with
  | some (.text target) =>
    if Text.startsWith target "./" || Text.startsWith target "../" then
      some (child (parent p) (if Text.endsWith target ".json" then target else target ++ ".json"))
    else none
  | _ => none

theorem extended?_eq (p : Text) (entries : List (Value × Value)) :
    extended? files p (Value.lookup? entries "extends") =
      match extendsPath? p entries with
      | some q => (files.realPath q).bind fun real =>
          (files.isFile real).map fun isFile => if isFile then some real else none
      | none => .ok none := by
  rw [extendsPath?]
  cases Value.lookup? entries "extends" with
  | none => rfl
  | some value =>
    cases value with
    | text target =>
      simp only [extended?]
      split <;> rfl
    | _ => rfl

section
variable (files) (first : Text) (own : List (Value × Value))

/-- The paths that a chain of configurations names: of the first one, and of all that one of them
names as the one it extends, whether it is there or not. -/
inductive Names : Text → Prop
  | first : Names first
  | extended {visited : List Text} {p q : Text} {entries : List (Value × Value)}
    (reached : Reaches files first own visited p entries) (few : visited.length ≤ ancestorLimit)
    (named : extendsPath? p entries = some q) : Names q

end

/-- Nothing has been changed at the paths that a chain of configurations names, nor at the real paths
of these. -/
def ChainUntouched (files other : FileSystem) (first : Text) (own : List (Value × Value)) : Prop :=
  ∀ q, Names files first own q → files.Untouched other q ∧
    ∀ real, files.realPath q = .ok real → files.Untouched other real

section
variable (untouched : files.Untouched other p)
include untouched

theorem content?_of_untouched : content? other p = content? files p := by
  rw [content?, content?, untouched.text?]

theorem document?_of_untouched : document? other p = document? files p := by
  rw [document?, document?, content?_of_untouched untouched]

theorem script_of_untouched (settings : Settings) :
    script other p settings = script files p settings := by
  rw [script, script, content?_of_untouched untouched]

end

section
variable {first : Text} {own : List (Value × Value)} (unchanged : ChainUntouched files other first own)
include unchanged

/-- A configuration of the chain extends what it extended, and nothing has been changed there. -/
theorem extended?_of_untouched {visited : List Text} {entries : List (Value × Value)}
    (reached : Reaches files first own visited p entries) (few : visited.length ≤ ancestorLimit)
    {parent : Option Text}
    (told : extended? files p (Value.lookup? entries "extends") = .ok parent) :
    extended? other p (Value.lookup? entries "extends") = .ok parent ∧
      ∀ q, parent = some q → files.Untouched other q := by
  rw [extended?_eq] at told ⊢
  cases named : extendsPath? p entries with
  | none =>
    rw [named] at told
    cases told
    exact ⟨rfl, by simp⟩
  | some q =>
    rw [named] at told
    obtain ⟨real, located, told⟩ := bind_eq_ok.1 told
    obtain ⟨isFile, checked, same⟩ := map_eq_ok.1 told
    obtain ⟨here, behind⟩ := unchanged q (.extended reached few named)
    have there := behind real located
    refine ⟨bind_eq_ok.2 ⟨real, here.realPath located there,
      map_eq_ok.2 ⟨isFile, there.isFile.trans checked, same⟩⟩, ?_⟩
    rintro q rfl
    cases isFile with
    | true => exact Option.some.inj same ▸ there
    | false => cases same

theorem ancestors_of_untouched {visited : List Text} {entries : List (Value × Value)}
    (reached : Reaches files first own visited p entries) {limit : Nat}
    (left : limit + visited.length = ancestorLimit + 1) {chain : List (List (Value × Value))}
    (told : ancestors files limit visited p entries = .ok chain) :
    ancestors other limit visited p entries = .ok chain := by
  induction limit generalizing visited p entries chain with
  | zero => exact told
  | succ limit ih =>
    have few : visited.length ≤ ancestorLimit := by omega
    rw [ancestors] at told ⊢
    split at told
    · cases told
    · rename_i alone
      rw [(extended?_of_untouched unchanged reached few alone).1]
      exact told
    · rename_i q extended
      obtain ⟨same, kept⟩ := extended?_of_untouched unchanged reached few extended
      have untouched := kept q rfl
      simp only [same, document?_of_untouched untouched]
      split at told
      · rename_i seen
        rw [if_pos seen]
        exact told
      rename_i new
      rw [if_neg new]
      split at told
      · cases told
      · exact told
      · rename_i more document
        obtain ⟨others, onwards, same⟩ := map_eq_ok.1 told
        have further := Reaches.parent reached few extended (by simpa using new) document
        refine map_eq_ok.2 ⟨others, ih further ?_ onwards, same⟩
        rw [List.length_cons]
        omega

theorem compilerOptions_of_untouched {options : List (Value × Value)}
    (told : compilerOptions files first own = .ok options) :
    compilerOptions other first own = .ok options := by
  rw [compilerOptions] at told ⊢
  split at told
  · cases told
  · rename_i real located
    obtain ⟨here, behind⟩ := unchanged first .first
    obtain ⟨chain, onwards, same⟩ := map_eq_ok.1 told
    rw [here.realPath located (behind real located)]
    exact map_eq_ok.2 ⟨chain, ancestors_of_untouched unchanged (.own located) rfl onwards, same⟩

end

/-- A document is taken over as it was. -/
theorem apply_of_untouched {kind : Kind} {entries : List (Value × Value)} {settings found : Settings}
    (unchanged : kind = .compiler → ChainUntouched files other p entries)
    (applied : apply files p kind entries settings = .ok found) :
    apply other p kind entries settings = .ok found := by
  cases kind with
  | compiler =>
    obtain ⟨options, told, rfl⟩ := map_eq_ok.1 applied
    exact map_eq_ok.2 ⟨options, compilerOptions_of_untouched (unchanged rfl) told, rfl⟩
  | transpiler | package | script => exact applied

section
variable {candidates : List (Text × Kind)} {name : Text} {kind : Kind}
  {entries : List (Value × Value)} {rest : List (Text × Kind)} {settings : Settings}
  {outcome : Settings × List Notice}

theorem Counts.of_untouched (counts : Counts files p kind entries)
    (untouched : files.Untouched other p) : Counts other p kind entries where
  there := untouched.isFile.trans counts.there
  document := counts.document
  read := (document?_of_untouched untouched).trans counts.read
  aliased := counts.aliased

/-- A document that does not count decides nothing, whatever configurations there are. -/
theorem decide?_of_not_counts (there : files.isFile p = .ok true) (document : kind ≠ .script)
    {read : Option (List (Value × Value))} (found : document? files p = .ok read)
    (none : ∀ entries, ¬ Counts files p kind entries) :
    decide? other name p kind settings read = decide? files name p kind settings read := by
  cases read with
  | none => rfl
  | some entries =>
    have bare : kind = .transpiler ∧ (resolverAliases entries).size = 0 := by
      by_contra counts
      exact none entries ⟨there, document, found, fun kind bare => counts ⟨kind, bare⟩⟩
    simp [decide?, bare]

/-- A search that goes on behind an unchanged candidate still does so. -/
theorem search_of_untouched_first (untouched : files.Untouched other (child root name))
    (none : ∀ entries, ¬ Counts files (child root name) kind entries)
    (later : ∀ {settings outcome}, search files root rest settings = .ok outcome →
      search other root rest settings = .ok outcome)
    (run : search files root ((name, kind) :: rest) settings = .ok outcome) :
    search other root ((name, kind) :: rest) settings = .ok outcome := by
  simp only [search, untouched.isFile, script_of_untouched untouched,
    document?_of_untouched untouched] at run ⊢
  split at run
  · cases run
  · exact later run
  rename_i there
  split at run
  · rename_i isScript
    rw [if_pos isScript]
    split at run
    · cases run
    · exact later run
  rename_i document
  rw [if_neg document]
  split at run
  · cases run
  rename_i read found
  simp only [decide?_of_not_counts there document found none]
  split at run
  · cases run
  · exact run
  · obtain ⟨last, onwards, same⟩ := map_eq_ok.1 run
    exact map_eq_ok.2 ⟨last, later onwards, same⟩

/-- What is changed behind the first document that counts and beside its chain changes nothing. -/
theorem search_of_untouched {before after : List (Text × Kind)}
    (first : IsFirst files root candidates before name kind after entries)
    (untouched : ∀ candidate ∈ before ++ [(name, kind)],
      files.Untouched other (child root candidate.1))
    (unchanged : kind = .compiler → ChainUntouched files other (child root name) entries)
    (run : search files root candidates settings = .ok outcome) :
    search other root candidates settings = .ok outcome := by
  obtain ⟨rfl, passed, counts⟩ := first
  induction before generalizing settings outcome with
  | nil =>
    have here := untouched (name, kind) (by simp)
    rw [List.nil_append, search_of_counts counts] at run
    rw [List.nil_append, search_of_counts (counts.of_untouched here)]
    obtain ⟨applied, taken, same⟩ := map_eq_ok.1 run
    exact map_eq_ok.2 ⟨applied, apply_of_untouched unchanged taken, same⟩
  | cons candidate before ih =>
    obtain ⟨here, behind⟩ := List.forall_mem_cons.1 untouched
    obtain ⟨none, passed⟩ := List.forall_mem_cons.1 passed
    exact search_of_untouched_first here none (ih behind passed) run

end

/-- What the settings of a project are, if they can be found: the first document that counts has the
last word over the scripts in front of it. Whatever is changed, added or removed in the file system,
they stay the same as long as nothing has been changed at the paths of the candidates up to this
document and, if it is a compiler configuration, at the paths that its chain names. -/
theorem load_settles {settings : Settings} {notices : List Notice}
    (loaded : load files root = .ok (settings, notices)) :
    Settles files root candidates settings ∧
    ∀ {before name kind after entries other},
      IsFirst files root candidates before name kind after entries →
      (∀ candidate ∈ before ++ [(name, kind)], files.Untouched other (child root candidate.1)) →
      (kind = .compiler → ChainUntouched files other (child root name) entries) →
      load other root = .ok (settings, notices) :=
  ⟨settles_of_search loaded, fun first untouched unchanged =>
    search_of_untouched first untouched unchanged loaded⟩

/-- A compiler configuration and the one that it extends. -/
def layerText : Text := "\x7b\"extends\": \"./base\"\x7d"

def layerEntries : List (Value × Value) := [(.text "extends", .text "./base")]

def baseText : Text := "\x7b\"compilerOptions\": \x7b\"baseUrl\": \"lib\"\x7d\x7d"

def baseEntries : List (Value × Value) :=
  [(.text "compilerOptions", .map [(.text "baseUrl", .text "lib")])]

/-- A project with these two files. -/
def layered : FileSystem where
  tree :=
    { entries :=
        [(["p"], .directory), (["p", "tsconfig.json"], .file (Text.utf8 layerText)),
          (["p", "base.json"], .file (Text.utf8 baseText))]
      distinct := by decide
      named := by decide
      housed := by decide }

/-- The project when a bundler configuration has been added to it, and a package file that is a link. -/
def relayered : FileSystem where
  tree := (layered.tree.add ["p", "webpack.config.js"] (.file (Text.utf8 "baseUrl: 'src'"))).add
    ["p", "package.json"] (.link "base.json")

/-- The settings of this project. -/
def layeredSettings : Settings := { baseUrl := "lib", source := some "tsconfig.json" }

theorem read_layer : document? layered "/p/tsconfig.json" = .ok (some layerEntries) := by cbv

theorem read_base : document? layered "/p/base.json" = .ok (some baseEntries) := by cbv

theorem realPath_layered {q : Text} (listed : q = "/p/tsconfig.json" ∨ q = "/p/base.json") :
    layered.realPath q = .ok q := by
  rcases listed with rfl | rfl <;> decide +kernel

theorem extends_base : extended? layered "/p/tsconfig.json" (Value.lookup? layerEntries "extends") =
    .ok (some "/p/base.json") := by
  rw [extended?_eq]
  exact bind_eq_ok.2 ⟨"/p/base.json", realPath_layered (.inr rfl), by decide +kernel⟩

/-- The chain of configurations of this project consists of these two. -/
theorem reaches_layered {visited : List Text} {q : Text} {entries : List (Value × Value)}
    (reached : Reaches layered "/p/tsconfig.json" layerEntries visited q entries) :
    q = "/p/tsconfig.json" ∧ entries = layerEntries ∨ q = "/p/base.json" ∧ entries = baseEntries := by
  induction reached with
  | own => exact .inl ⟨rfl, rfl⟩
  | parent reached few extended new document ih =>
    rcases ih with ⟨rfl, rfl⟩ | ⟨rfl, rfl⟩
    · cases extends_base.symm.trans extended
      cases read_base.symm.trans document
      exact .inr ⟨rfl, rfl⟩
    · cases extended

theorem names_layered {q : Text} (named : Names layered "/p/tsconfig.json" layerEntries q) :
    q = "/p/tsconfig.json" ∨ q = "/p/base.json" := by
  cases named with
  | first => exact .inl rfl
  | extended reached few named =>
    rcases reaches_layered reached with ⟨rfl, rfl⟩ | ⟨rfl, rfl⟩
    · exact .inr (Option.some.inj named).symm
    · cases named

theorem counts_layer : Counts layered "/p/tsconfig.json" .compiler layerEntries :=
  ⟨rfl, by decide, read_layer, by decide⟩

/-- The base directory of the first configuration is the one of the second. -/
theorem apply_layer :
    apply layered "/p/tsconfig.json" .compiler layerEntries {} = .ok { baseUrl := "lib" } := by
  have chain : ancestors layered ancestorLimit ["/p/tsconfig.json"] "/p/tsconfig.json" layerEntries =
      .ok [baseEntries] := by
    rw [ancestorLimit, ancestors_succ extends_base (by decide +kernel) read_base]
    rfl
  rw [apply, compilerOptions, realPath_layered (.inl rfl)]
  simp only [chain]
  rfl

theorem load_layered :
    load layered "/p" = .ok (layeredSettings, [.configured "tsconfig.json" "lib" 0]) := by
  have absent : layered.isFile (child "/p" "jsconfig.json") = .ok false := rfl
  rw [load, candidates, search]
  simp only [absent]
  rw [search_of_counts counts_layer]
  exact map_eq_ok.2 ⟨_, apply_layer, rfl⟩

/-- None of the files that have been added is come across. -/
theorem untouched_layered {q : Text}
    (listed : q = "/p/jsconfig.json" ∨ q = "/p/tsconfig.json" ∨ q = "/p/base.json") :
    layered.Untouched relayered q := by
  refine .of_linkless rfl rfl ?_ rfl
  rcases listed with rfl | rfl | rfl <;> decide +kernel

/-- Neither of them has a say in the settings. -/
theorem layered_settles :
    load layered "/p" = .ok (layeredSettings, [.configured "tsconfig.json" "lib" 0]) ∧
    load relayered "/p" = .ok (layeredSettings, [.configured "tsconfig.json" "lib" 0]) := by
  have first : IsFirst layered "/p" candidates [("jsconfig.json", .compiler)] "tsconfig.json"
      .compiler (candidates.drop 2) layerEntries := by
    refine ⟨rfl, ?_, counts_layer⟩
    simp only [NoneCounts, List.forall_mem_singleton]
    exact fun entries counts => by cases counts.there
  refine ⟨load_layered, (load_settles load_layered).2 first ?_ fun _ q named => ?_⟩
  · simp only [List.cons_append, List.nil_append, List.forall_mem_cons, List.not_mem_nil]
    exact ⟨untouched_layered (.inl rfl), untouched_layered (.inr (.inl rfl)), by simp⟩
  · have listed := names_layered named
    refine ⟨untouched_layered (.inr listed), fun real located => ?_⟩
    cases (realPath_layered listed).symm.trans located
    exact untouched_layered (.inr listed)

end ModuleAtlas.Configuration
