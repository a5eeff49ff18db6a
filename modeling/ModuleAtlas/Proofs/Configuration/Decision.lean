import ModuleAtlas.Proofs.Configuration.Load
/-!
The document that has the last word. A search that comes to an end has either taken over the first
document that counts, or found none and fallen back on the default (`search_cases`). So settings that
name a configuration file come from the search having reached it: all candidates in front of it have
given way, it is a mapping, and it is taken over on top of what the scripts among them show
(`decides_of_search`).
-/
namespace ModuleAtlas.Configuration
open ModuleAtlas.Path

section
variable (files : FileSystem) (root : Text) (candidates : List (Text × Kind)) (settings : Settings)

/-- The document of a candidate decides: all candidates in front of it give way, and the settings
are what they show with the document taken over. -/
inductive Decides : Text → Settings → Prop
  | document {before after : List (Text × Kind)} {name : Text} {kind : Kind}
    {entries : List (Value × Value)} {found : Settings}
    (split : candidates = before ++ (name, kind) :: after)
    (passed : ∀ candidate ∈ before, GivesWay files (child root candidate.1) candidate.2)
    (there : files.isFile (child root name) = .ok true)
    (document : document? files (child root name) = .ok (some entries))
    (applied : apply files (child root name) kind entries
      (settingsBehind files root before settings) = .ok found) :
    Decides name { found with source := some name }

end

variable {files : FileSystem} {root name : Text} {settings found : Settings}
  {notices : List Notice}

theorem source_settingsAfter (files : FileSystem) (p : Text) (kind : Kind) (settings : Settings) :
    (settingsAfter files p kind settings).source = settings.source := by
  rw [settingsAfter.eq_def]
  split <;> rfl

theorem source_withDefault (run : withDefault files root settings = .ok found) :
    found.source = settings.source := by
  rw [withDefault] at run
  split at run
  · split at run
    · cases run
    · rename_i isDirectory _
      cases run
      cases isDirectory <;> rfl
  · cases run
    rfl

/-! ## Documents that count -/

/-- The document of a candidate counts: the file is there and is no script, its text is a mapping,
and if it is a transpiler configuration, it has aliases. -/
structure Counts (files : FileSystem) (p : Text) (kind : Kind) (entries : List (Value × Value)) :
    Prop where
  there : files.isFile p = .ok true
  document : kind ≠ .script
  read : document? files p = .ok (some entries)
  aliased : kind = .transpiler → (resolverAliases entries).size ≠ 0

section
variable {kind : Kind} {entries : List (Value × Value)} {rest : List (Text × Kind)}

theorem GivesWay.not_counts {p : Text} (gives : GivesWay files p kind) :
    ¬ Counts files p kind entries := by
  intro counts
  cases gives with
  | absent none => cases none.symm.trans counts.there
  | script there => exact counts.document rfl
  | unusable there document none => cases none.symm.trans counts.read
  | unaliased there document none =>
    cases document.symm.trans counts.read
    exact counts.aliased rfl none

/-- A document that counts ends the search. -/
theorem search_of_counts (counts : Counts files (child root name) kind entries) :
    search files root ((name, kind) :: rest) settings =
      (apply files (child root name) kind entries settings).map fun found =>
        ({ found with source := some name },
          [.configured name found.baseUrl found.aliases.size]) := by
  have aliased : ¬ (kind = .transpiler ∧ (resolverAliases entries).size = 0) :=
    fun bare => counts.aliased bare.1 bare.2
  simp only [search, counts.there, counts.document, counts.read, decide?, if_neg aliased, if_false]
  cases apply files (child root name) kind entries settings <;> rfl

/-- If the search comes to an end, then each candidate that it tries gives way or counts. -/
theorem givesWay_or_counts
    (run : search files root ((name, kind) :: rest) settings = .ok (found, notices)) :
    GivesWay files (child root name) kind ∨
      ∃ entries, Counts files (child root name) kind entries := by
  simp only [search] at run
  split at run
  · cases run
  · rename_i absent
    exact .inl (.absent absent)
  rename_i there
  split at run
  · rename_i isScript
    subst isScript
    exact .inl (.script there)
  rename_i other
  split at run
  · cases run
  rename_i document read
  cases document with
  | none => exact .inl (.unusable there other read)
  | some entries =>
    by_cases bare : kind = .transpiler ∧ (resolverAliases entries).size = 0
    · obtain ⟨rfl, none⟩ := bare
      exact .inl (.unaliased there read none)
    · exact .inr ⟨entries, there, other, read, fun kind none => bare ⟨kind, none⟩⟩

end

/-! ## The search -/

/-- A search that comes to an end does so with the first document that counts, or, if none does, with
the default. All candidates that it has tried before give way. -/
theorem search_cases {candidates : List (Text × Kind)}
    (run : search files root candidates settings = .ok (found, notices)) :
    (∃ before name kind after entries applied, candidates = before ++ (name, kind) :: after ∧
      (∀ candidate ∈ before, GivesWay files (child root candidate.1) candidate.2) ∧
      Counts files (child root name) kind entries ∧
      apply files (child root name) kind entries (settingsBehind files root before settings) =
        .ok applied ∧ found = { applied with source := some name }) ∨
    (∀ candidate ∈ candidates, GivesWay files (child root candidate.1) candidate.2) ∧
      withDefault files root (settingsBehind files root candidates settings) = .ok found := by
  induction candidates generalizing settings notices with
  | nil =>
    obtain ⟨last, default, same⟩ := map_eq_ok.1 run
    cases same
    exact .inr ⟨by simp, default⟩
  | cons first rest ih =>
    obtain ⟨name, kind⟩ := first
    rcases givesWay_or_counts run with gives | ⟨entries, counts⟩
    · obtain ⟨told, on⟩ := @search_behind files root name kind rest settings gives
      rw [on] at run
      obtain ⟨⟨last, told⟩, later, same⟩ := map_eq_ok.1 run
      obtain ⟨rfl, -⟩ := Prod.mk.inj same
      rcases ih later with ⟨before, _, _, after, _, _, split, passed, counts, taken, rfl⟩ |
        ⟨passed, default⟩
      · have further : (name, kind) :: rest = ((name, kind) :: before) ++ _ :: after :=
          congrArg (List.cons (name, kind)) split
        exact .inl ⟨_, _, _, _, _, _, further, List.forall_mem_cons.2 ⟨gives, passed⟩, counts, taken,
          rfl⟩
      · exact .inr ⟨List.forall_mem_cons.2 ⟨gives, passed⟩, default⟩
    · rw [search_of_counts counts] at run
      obtain ⟨applied, taken, same⟩ := map_eq_ok.1 run
      cases same
      exact .inl ⟨[], _, _, _, _, _, rfl, by simp, counts, taken, rfl⟩

theorem source_settingsBehind (candidates : List (Text × Kind)) (settings : Settings) :
    (settingsBehind files root candidates settings).source = settings.source := by
  induction candidates generalizing settings with
  | nil => rfl
  | cons first rest ih => exact (ih _).trans (source_settingsAfter ..)

/-- Settings that name a configuration file come from a document that decides. -/
theorem decides_of_search {candidates : List (Text × Kind)} (unnamed : settings.source = none)
    (run : search files root candidates settings = .ok (found, notices))
    (named : found.source = some name) :
    Decides files root candidates settings name found := by
  rcases search_cases run with ⟨_, _, _, _, _, _, split, passed, counts, taken, rfl⟩ | ⟨-, default⟩
  · cases named
    exact .document split passed counts.there counts.read taken
  · rw [source_withDefault default, source_settingsBehind, unnamed] at named
    cases named

end ModuleAtlas.Configuration
