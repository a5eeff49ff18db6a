import ModuleAtlas.Proofs.Configuration.Commented
import ModuleAtlas.Proofs.FileTree.Check
/-!
When the settings of a project cannot be found. The search ends with a fault at the first candidate
that does not give way to the next one and is refused (`IsRefused`), or at the default base. A
candidate is refused if it cannot be checked, if its text has a fault as data, or if so it is with a
configuration that it extends, directly or through others (`BreaksOff`). Files that are missing,
unreadable, undecodable, malformed or of another form than expected never are (`load_refused_iff`).
-/
namespace ModuleAtlas.Configuration
open ModuleAtlas.Path

variable {files : FileSystem} {root p q : Text} {fault : SettingsFault}

/-! ## Single files -/

/-- The text has a fault as data. Without comments and the blanks around it, it is JSON up to an
integer with too many digits, or it is no JSON, and as YAML it has a fault other than being
malformed. -/
inductive HasFault (content : Text) : DataFault → Prop
  | integer {digits : Nat}
    (json : Json.read (Text.trim (withoutComments content)) = .error (.tooLong digits)) :
    HasFault content (.integerTooLong digits)
  | yaml {cause : DataFault} (nonempty : Text.trim (withoutComments content) ≠ [])
    (json : Json.read (Text.trim (withoutComments content)) = .error .malformed)
    (yaml : Yaml.read (Text.trim (withoutComments content)) = .error cause)
    (other : cause ≠ .malformed) : HasFault content cause

theorem readDocument_eq_error_iff {content : Text} {cause : DataFault} :
    readDocument content = .error cause ↔ HasFault content cause := by
  simp only [readDocument, readData]
  constructor
  · intro failed
    split at failed
    · cases failed
    rename_i some
    cases json : Json.read (Text.trim (withoutComments content)) with
    | ok value => cases same : Value.ofJson value <;> simp [json, same] at failed
    | error refused =>
      cases refused with
      | tooLong digits =>
        simp only [json, Except.error.injEq] at failed
        exact failed ▸ .integer json
      | malformed =>
        cases yaml : Yaml.read (Text.trim (withoutComments content)) with
        | ok value => cases value <;> simp [json, yaml] at failed
        | error other =>
          by_cases malformed : other = .malformed
          · simp [json, yaml, malformed] at failed
          · simp only [json, yaml] at failed
            obtain rfl := Except.error.inj failed
            exact .yaml (by simpa using some) json yaml malformed
  · intro fault
    cases fault with
    | integer json =>
      have some : Text.trim (withoutComments content) ≠ [] := by
        intro none
        have nothing : Json.Fails .malformed [] :=
          Json.value_eq_error (by simp) (by simp) (by simp) rfl
        rw [none, nothing.read] at json
        cases json
      simp [some, json]
    | yaml nonempty json yaml other => simp [nonempty, json, yaml]

theorem hasFault_of_yaml {content t : Text} (cleaned : Text.trim (withoutComments content) = t)
    (nonempty : t ≠ []) (json : Json.read t = .error .malformed) {cause : DataFault}
    (yaml : Yaml.read t = .error cause) (other : cause ≠ .malformed) : HasFault content cause := by
  subst cleaned
  exact .yaml nonempty json yaml other

/-- The text of the file at a path has a fault as data. -/
def IsFaulty (files : FileSystem) (p : Text) (cause : DataFault) : Prop :=
  ∃ content, files.text? p = .ok (some content) ∧ HasFault content cause

/-- Reading what is a file fails only if access to it is not granted. -/
theorem text?_of_isFile (there : files.isFile p = .ok true) :
    (∃ content, files.text? p = .ok content) ∨ files.text? p = .error ⟨.denied, p⟩ := by
  rw [FileSystem.isFile, FileSystem.target?] at there
  rw [FileSystem.text?, FileSystem.bytes]
  split
  · exact .inr rfl
  · left
    split at there
    · rename_i place entry located
      cases entry with
      | file bytes => exact ⟨_, by rw [located]; rfl⟩
      | directory => cases there
      | link target => cases there
    · cases there
    · split at there <;> cases there

/-- The text of a file is told, or it is told that it has none. -/
theorem content?_of_isFile (there : files.isFile p = .ok true) :
    ∃ content, content? files p = .ok content := by
  rcases text?_of_isFile there with ⟨content, read⟩ | denied
  · exact ⟨content, by rw [content?, read]⟩
  · exact ⟨none, by rw [content?, denied]; rfl⟩

theorem document?_eq_error_iff (there : files.isFile p = .ok true) :
    document? files p = .error fault ↔ ∃ cause, fault = .data cause ∧ IsFaulty files p cause := by
  rw [document?, content?]
  rcases text?_of_isFile there with ⟨content, read⟩ | denied
  · cases content with
    | none => simp [IsFaulty, read]
    | some content =>
      simp only [IsFaulty, read, ← readDocument_eq_error_iff]
      cases run : readDocument content with
      | ok document => simp [run, Except.mapError]
      | error cause => simp [run, Except.mapError, eq_comm]
  · simp [IsFaulty, denied]

/-! ## Extended configurations -/

/-- What extending fails for is borne out by the file system. -/
theorem extended?_eq_error {value : Option Value} {cause : FileFault}
    (failed : extended? files p value = .error cause) : files.BearsOut cause := by
  rw [extended?.eq_def] at failed
  split at failed
  · simp only at failed
    split at failed
    · cases found : files.realPath _ with
      | error other =>
        rw [found] at failed
        cases failed
        exact FileSystem.realPath_eq_error found
      | ok real =>
        rw [found] at failed
        have checked : files.isFile real = .error cause := map_eq_error.1 failed
        exact FileSystem.bearsOut_of_target? (FileSystem.isFile_eq_error_iff.1 checked)
    · cases failed
  · cases failed

theorem isFile_of_extended? {value : Option Value} (found : extended? files p value = .ok (some q)) :
    files.isFile q = .ok true := by
  rw [extended?.eq_def] at found
  split at found
  · simp only at found
    split at found
    · obtain ⟨real, -, checked⟩ := bind_eq_ok.1 found
      obtain ⟨isFile, checked, same⟩ := map_eq_ok.1 checked
      cases isFile with
      | true => simpa using (Option.some.inj same) ▸ checked
      | false => cases same
    · cases found
  · cases found

section
variable (files) (first : Text) (own : List (Value × Value))

/-- The configurations that the first one extends, directly or through others: the files visited up
to there, the last one first, its path and its entries. -/
inductive Reaches : List Text → Text → List (Value × Value) → Prop
  | own {real : Text} (found : files.realPath first = .ok real) : Reaches [real] first own
  | parent {visited : List Text} {p q : Text} {entries more : List (Value × Value)}
    (reached : Reaches visited p entries) (few : visited.length ≤ ancestorLimit)
    (extended : extended? files p (Value.lookup? entries "extends") = .ok (some q))
    (new : q ∉ visited) (document : document? files q = .ok (some more)) :
    Reaches (q :: visited) q more

/-- The chain of configurations breaks off with a fault: it cannot be told which file one of them
extends, or this file is faulty. -/
inductive BreaksOff : SettingsFault → Prop
  | unreal {cause : FileFault} (failed : files.realPath first = .error cause) :
    BreaksOff (.file cause)
  | untold {visited : List Text} {p : Text} {entries : List (Value × Value)} {cause : FileFault}
    (reached : Reaches files first own visited p entries) (few : visited.length ≤ ancestorLimit)
    (failed : extended? files p (Value.lookup? entries "extends") = .error cause) :
    BreaksOff (.file cause)
  | faulty {visited : List Text} {p q : Text} {entries : List (Value × Value)} {cause : DataFault}
    (reached : Reaches files first own visited p entries) (few : visited.length ≤ ancestorLimit)
    (extended : extended? files p (Value.lookup? entries "extends") = .ok (some q))
    (new : q ∉ visited) (failed : IsFaulty files q cause) : BreaksOff (.data cause)

end

section
variable {first : Text} {own entries : List (Value × Value)} {visited : List Text}

/-- Reading on from a configuration that is reached fails only as the chain breaks off. -/
theorem Reaches.breaksOff (reached : Reaches files first own visited p entries) {limit : Nat}
    (left : limit + visited.length = ancestorLimit + 1)
    (failed : ancestors files limit visited p entries = .error fault) :
    BreaksOff files first own fault := by
  -- What is left of the limit and what has been visited add up to the same all along the chain, so
  -- the limit is used up exactly where no further file would be looked at.
  induction limit generalizing visited p entries with
  | zero => cases failed
  | succ limit ih =>
    have few : visited.length ≤ ancestorLimit := by omega
    rw [ancestors] at failed
    split at failed
    · rename_i cause untold
      cases failed
      exact .untold reached few untold
    · cases failed
    · rename_i q extended
      split at failed
      · cases failed
      · rename_i seen
        have new : q ∉ visited := by simpa using seen
        split at failed
        · rename_i refused
          cases failed
          obtain ⟨cause, rfl, faulty⟩ :=
            (document?_eq_error_iff (isFile_of_extended? extended)).1 refused
          exact .faulty reached few extended new faulty
        · cases failed
        · rename_i more document
          refine ih (.parent reached few extended new document) ?_ (map_eq_error.1 failed)
          rw [List.length_cons]
          omega

/-- One more step along the chain. -/
theorem ancestors_succ {limit : Nat} {more : List (Value × Value)}
    (extended : extended? files p (Value.lookup? entries "extends") = .ok (some q))
    (new : q ∉ visited) (document : document? files q = .ok (some more)) :
    ancestors files (limit + 1) visited p entries =
      (ancestors files limit (q :: visited) q more).map (more :: ·) := by
  rw [ancestors, extended]
  simp [new, document]

/-- A fault behind a configuration that is reached is a fault of the whole chain. -/
theorem Reaches.fails (reached : Reaches files first own visited p entries) (limit : Nat)
    (left : limit + visited.length = ancestorLimit + 1)
    (failed : ancestors files limit visited p entries = .error fault) :
    compilerOptions files first own = .error fault := by
  -- Along the way back to the first configuration the fault is passed on at each step.
  induction reached generalizing limit with
  | own found =>
    obtain rfl : limit = ancestorLimit := by simpa using left
    rw [compilerOptions, found]
    exact map_eq_error.2 failed
  | parent before few extended new document ih =>
    rw [List.length_cons] at left
    refine ih (limit + 1) (by omega) ?_
    rw [ancestors_succ extended new document]
    exact map_eq_error.2 failed

/-- The options of a configuration with those it extends cannot be told exactly if the chain of
configurations breaks off. -/
theorem compilerOptions_eq_error_iff :
    compilerOptions files first own = .error fault ↔ BreaksOff files first own fault := by
  constructor
  · intro failed
    rw [compilerOptions] at failed
    split at failed
    · rename_i unreal
      cases failed
      exact .unreal unreal
    · rename_i real found
      exact (Reaches.own found).breaksOff rfl (map_eq_error.1 failed)
  · intro breaks
    cases breaks with
    | unreal failed => rw [compilerOptions, failed]
    | untold reached few failed =>
      obtain ⟨limit, left⟩ := Nat.exists_eq_add_of_le few
      refine reached.fails (limit + 1) (by omega) ?_
      rw [ancestors, failed]
    | faulty reached few extended new faulty =>
      obtain ⟨limit, left⟩ := Nat.exists_eq_add_of_le few
      have refused := (document?_eq_error_iff (isFile_of_extended? extended)).2 ⟨_, rfl, faulty⟩
      refine reached.fails (limit + 1) (by omega) ?_
      rw [ancestors, extended]
      simp [new, refused]

end

/-! ## Candidates -/

/-- The search goes on behind a candidate: there is no such file, it is a script, it has no text or
its text is no mapping, or it is a transpiler configuration without aliases. -/
inductive GivesWay (files : FileSystem) (p : Text) : Kind → Prop
  | absent {kind : Kind} (none : files.isFile p = .ok false) : GivesWay files p kind
  | script (there : files.isFile p = .ok true) : GivesWay files p .script
  | unusable {kind : Kind} (there : files.isFile p = .ok true) (document : kind ≠ .script)
    (none : document? files p = .ok none) : GivesWay files p kind
  | unaliased {entries : List (Value × Value)} (there : files.isFile p = .ok true)
    (document : document? files p = .ok (some entries))
    (none : (resolverAliases entries).size = 0) : GivesWay files p .transpiler

/-- The search ends with a fault at a candidate: it cannot be told whether it is there, its text has
a fault as data, or the chain of configurations it extends breaks off. -/
inductive IsRefused (files : FileSystem) (p : Text) : Kind → SettingsFault → Prop
  | unchecked {kind : Kind} {cause : FileFault} (failed : files.isFile p = .error cause) :
    IsRefused files p kind (.file cause)
  | faulty {kind : Kind} {cause : DataFault} (there : files.isFile p = .ok true)
    (document : kind ≠ .script) (failed : IsFaulty files p cause) :
    IsRefused files p kind (.data cause)
  | broken {entries : List (Value × Value)} {fault : SettingsFault}
    (there : files.isFile p = .ok true) (document : document? files p = .ok (some entries))
    (breaks : BreaksOff files p entries fault) : IsRefused files p .compiler fault

/-- The settings after a candidate that gives way: a script adds what it shows. -/
def settingsAfter (files : FileSystem) (p : Text) (kind : Kind) (settings : Settings) : Settings :=
  match kind, files.isFile p, content? files p with
  | .script, .ok true, .ok (some content) => readScript content settings
  | _, _, _ => settings

theorem apply_eq_error_iff {kind : Kind} {entries : List (Value × Value)} {settings : Settings} :
    apply files p kind entries settings = .error fault ↔
      kind = .compiler ∧ BreaksOff files p entries fault := by
  rw [← compilerOptions_eq_error_iff]
  cases kind with
  | compiler => simp [apply, map_eq_error]
  | package | transpiler | script => simp [apply]

theorem decide?_eq_error_iff {name : Text} {kind : Kind} {settings : Settings}
    {document : Option (List (Value × Value))} :
    decide? files name p kind settings document = .error fault ↔
      kind = .compiler ∧ ∃ entries, document = some entries ∧ BreaksOff files p entries fault := by
  cases document with
  | none => simp [decide?]
  | some entries =>
    simp only [decide?]
    split
    · rename_i bare
      simp [bare.1]
    · simp [map_eq_error, apply_eq_error_iff]

/-- A document that decides nothing gives way. -/
theorem givesWay_of_decide? {name : Text} {kind : Kind} {settings : Settings}
    {document : Option (List (Value × Value))} {notice : Notice}
    (there : files.isFile p = .ok true) (other : kind ≠ .script)
    (read : document? files p = .ok document)
    (decided : decide? files name p kind settings document = .ok (none, notice)) :
    GivesWay files p kind := by
  cases document with
  | none => exact .unusable there other read
  | some entries =>
    simp only [decide?] at decided
    split at decided
    · rename_i bare
      obtain ⟨rfl, none⟩ := bare
      exact .unaliased there read none
    · obtain ⟨after, -, same⟩ := map_eq_ok.1 decided
      cases same

section
variable {name : Text} {kind : Kind} {rest : List (Text × Kind)} {settings : Settings}

/-- Behind a candidate that gives way the search goes on with what it shows. -/
theorem search_behind (gives : GivesWay files (child root name) kind) :
    ∃ notices, search files root ((name, kind) :: rest) settings =
      (search files root rest (settingsAfter files (child root name) kind settings)).map
        fun found => (found.1, notices ++ found.2) := by
  have plain : ∀ run : Except SettingsFault (Settings × List Notice),
      run.map (fun found => found) = run := by
    intro run
    cases run <;> rfl
  cases gives with
  | absent none => exact ⟨[], by cases kind <;> simp [search, settingsAfter, none, plain]⟩
  | script there =>
    obtain ⟨content, read⟩ := content?_of_isFile there
    have shown : script files (child root name) settings =
        .ok (settingsAfter files (child root name) .script settings) := by
      cases content <;> simp [script, settingsAfter, there, read, Except.map]
    exact ⟨[], by simp [search, there, shown, plain]⟩
  | unusable there document none =>
    cases kind with
    | script => exact absurd rfl document
    | compiler | package | transpiler =>
      exact ⟨[.unusable (child root name)], by simp [search, settingsAfter, there, none, decide?]⟩
  | unaliased there document none =>
    exact ⟨[.withoutAliases (child root name)],
      by simp [search, settingsAfter, there, document, none, decide?]⟩

theorem search_of_givesWay (gives : GivesWay files (child root name) kind) :
    search files root ((name, kind) :: rest) settings = .error fault ↔
      search files root rest (settingsAfter files (child root name) kind settings) =
        .error fault := by
  obtain ⟨notices, run⟩ := @search_behind files root name kind rest settings gives
  rw [run, map_eq_error]

theorem search_of_isRefused (refused : IsRefused files (child root name) kind fault) :
    search files root ((name, kind) :: rest) settings = .error fault := by
  cases refused with
  | unchecked failed => simp [search, failed]
  | faulty there other faulty =>
    have read := (document?_eq_error_iff there).2 ⟨_, rfl, faulty⟩
    simp [search, there, other, read]
  | broken there read breaks =>
    have decided : decide? files name (child root name) .compiler settings _ = .error fault :=
      decide?_eq_error_iff.2 ⟨rfl, _, rfl, breaks⟩
    simp [search, there, read, decided]

/-- A candidate that does not give way ends the search, with a fault only if it is refused. -/
theorem isRefused_of_search (stays : ¬ GivesWay files (child root name) kind)
    (failed : search files root ((name, kind) :: rest) settings = .error fault) :
    IsRefused files (child root name) kind fault := by
  simp only [search] at failed
  split at failed
  · rename_i unchecked
    cases failed
    exact .unchecked unchecked
  · rename_i absent
    exact absurd (.absent absent) stays
  · rename_i there
    split at failed
    · rename_i isScript
      subst isScript
      exact absurd (.script there) stays
    · rename_i other
      split at failed
      · rename_i refused
        cases failed
        obtain ⟨cause, rfl, faulty⟩ := (document?_eq_error_iff there).1 refused
        exact .faulty there other faulty
      · rename_i document read
        split at failed
        · rename_i decided
          cases failed
          obtain ⟨rfl, entries, rfl, breaks⟩ := decide?_eq_error_iff.1 decided
          exact .broken there read breaks
        · cases failed
        · rename_i decided
          exact absurd (givesWay_of_decide? there other read decided) stays

end

/-! ## The search -/

/-- The settings behind candidates that give way. -/
def settingsBehind (files : FileSystem) (root : Text) (candidates : List (Text × Kind))
    (settings : Settings) : Settings :=
  candidates.foldl (fun settings candidate =>
    settingsAfter files (child root candidate.1) candidate.2 settings) settings

section
variable (files) (root) (candidates : List (Text × Kind)) (settings : Settings)

/-- Why the search among candidates ends with a fault: one of them is refused and all in front of it
give way, or all of them give way, scripts show no settings, and the default base cannot be
checked. -/
inductive Ends : SettingsFault → Prop
  | candidate {before after : List (Text × Kind)} {name : Text} {kind : Kind}
    {fault : SettingsFault} (split : candidates = before ++ (name, kind) :: after)
    (passed : ∀ candidate ∈ before, GivesWay files (child root candidate.1) candidate.2)
    (refused : IsRefused files (child root name) kind fault) : Ends fault
  | base {cause : FileFault}
    (passed : ∀ candidate ∈ candidates, GivesWay files (child root candidate.1) candidate.2)
    (noBase : (settingsBehind files root candidates settings).baseUrl = [])
    (noAliases : (settingsBehind files root candidates settings).aliases.size = 0)
    (failed : files.isDirectory (child root defaultBase) = .error cause) : Ends (.file cause)

end

theorem withDefault_eq_error_iff {settings : Settings} :
    withDefault files root settings = .error fault ↔
      settings.baseUrl = [] ∧ settings.aliases.size = 0 ∧
        ∃ cause, fault = .file cause ∧
          files.isDirectory (child root defaultBase) = .error cause := by
  rw [withDefault]
  split
  · rename_i bare
    simp only [Bool.and_eq_true, List.isEmpty_iff, beq_iff_eq] at bare
    cases files.isDirectory (child root defaultBase) <;> simp [bare, eq_comm]
  · rename_i some
    simp only [Bool.and_eq_true, List.isEmpty_iff, beq_iff_eq, not_and] at some
    simp only [reduceCtorEq, false_iff, not_and]
    exact fun noBase noAliases => absurd noAliases (some noBase)

theorem search_eq_error_iff {candidates : List (Text × Kind)} {settings : Settings} :
    search files root candidates settings = .error fault ↔
      Ends files root candidates settings fault := by
  induction candidates generalizing settings with
  | nil =>
    have default : search files root [] settings = .error fault ↔
        withDefault files root settings = .error fault := map_eq_error
    rw [default, withDefault_eq_error_iff]
    constructor
    · rintro ⟨noBase, noAliases, cause, rfl, failed⟩
      exact .base (by simp) noBase noAliases failed
    · intro ends
      cases ends with
      | candidate split => simp at split
      | base passed noBase noAliases failed => exact ⟨noBase, noAliases, _, rfl, failed⟩
  | cons first rest ih =>
    obtain ⟨name, kind⟩ := first
    constructor
    · intro failed
      by_cases gives : GivesWay files (child root name) kind
      · rw [search_of_givesWay gives, ih] at failed
        cases failed with
        | candidate split passed refused =>
          exact .candidate (by rw [split, ← List.cons_append])
            (List.forall_mem_cons.2 ⟨gives, passed⟩) refused
        | base passed noBase noAliases failed =>
          exact .base (List.forall_mem_cons.2 ⟨gives, passed⟩) noBase noAliases failed
      · exact .candidate (List.nil_append _).symm (by simp) (isRefused_of_search gives failed)
    · intro ends
      cases ends with
      | @candidate before after name' kind' _ split passed refused =>
        cases before with
        | nil =>
          obtain ⟨same, rfl⟩ := List.cons.inj split
          cases same
          exact search_of_isRefused refused
        | cons c before =>
          obtain ⟨rfl, rfl⟩ := List.cons.inj split
          obtain ⟨gives, passed⟩ := List.forall_mem_cons.1 passed
          rw [search_of_givesWay gives, ih]
          exact .candidate rfl passed refused
      | base passed noBase noAliases failed =>
        obtain ⟨gives, passed⟩ := List.forall_mem_cons.1 passed
        rw [search_of_givesWay gives, ih]
        exact .base passed noBase noAliases failed

/-- The fault is borne out by the files: the path of a file operation is one with which it fails, or
the text of some file has the fault as data. -/
def IsBorneOut (files : FileSystem) : SettingsFault → Prop
  | .data cause => ∃ p, IsFaulty files p cause
  | .file cause => files.BearsOut cause

theorem BreaksOff.isBorneOut {first : Text} {own : List (Value × Value)}
    (breaks : BreaksOff files first own fault) : IsBorneOut files fault := by
  cases breaks with
  | unreal failed => exact FileSystem.realPath_eq_error failed
  | untold reached few failed => exact extended?_eq_error failed
  | faulty reached few extended new faulty => exact ⟨_, faulty⟩

theorem IsRefused.isBorneOut {kind : Kind} (refused : IsRefused files p kind fault) :
    IsBorneOut files fault := by
  cases refused with
  | unchecked failed =>
    exact FileSystem.bearsOut_of_target? (FileSystem.isFile_eq_error_iff.1 failed)
  | faulty there document faulty => exact ⟨_, faulty⟩
  | broken there document breaks => exact breaks.isBorneOut

theorem Ends.isBorneOut {candidates : List (Text × Kind)} {settings : Settings}
    (ends : Ends files root candidates settings fault) : IsBorneOut files fault := by
  cases ends with
  | candidate split passed refused => exact refused.isBorneOut
  | base passed noBase noAliases failed =>
    exact FileSystem.bearsOut_of_target? (FileSystem.isDirectory_eq_error_iff.1 failed)

/-- A configuration with a date that no calendar has. -/
def badDate : Text := "a: 2024-99-99"

/-- A project with this compiler configuration. -/
def overdue : FileSystem where
  tree :=
    { entries := [(["p"], .directory), (["p", "tsconfig.json"], .file (Text.utf8 badDate))]
      distinct := by decide
      named := by decide
      housed := by decide }

/-- The fault of a text that is no data. -/
def fault? (read : Except DataFault Value) : Option DataFault :=
  match read with
  | .ok _ => none
  | .error cause => some cause

theorem eq_error_of_fault? {read : Except DataFault Value} {cause : DataFault}
    (found : fault? read = some cause) : read = .error cause := by
  cases read with
  | ok value => cases found
  | error other => rw [Option.some.inj found]

theorem hasFault_badDate : HasFault badDate (.calendar .month) := by
  have json : Json.read badDate = .error .malformed :=
    Json.Fails.read (Json.value_eq_error (by decide) (by decide) (by decide) rfl)
  have yaml : Yaml.read badDate = .error (.calendar .month) :=
    eq_error_of_fault? (by decide +kernel)
  have nonempty : badDate ≠ [] := by decide +kernel
  have cleaned : Text.trim (withoutComments badDate) = badDate := by decide +kernel
  exact hasFault_of_yaml cleaned nonempty json yaml (by decide)

theorem isFaulty_overdue : IsFaulty overdue "/p/tsconfig.json" (.calendar .month) :=
  ⟨badDate, text?_of_bytes rfl (by decide) (by decide), hasFault_badDate⟩

/-- A configuration that extends what no path can be. -/
def strayText : Text := "\x7b\"extends\": \"./\\ud800\"\x7d"

def strayTarget : Text := [.scalar '.', .scalar '/', .ofNat 0xD800]

/-- The path that it means. -/
def strayPath : Text := Path.join "/p" (.ofNat 0xD800 :: ↑".json")

def strayEntries : List (Value × Value) := [(.text "extends", .text strayTarget)]

/-- A project with this compiler configuration. -/
def stray : FileSystem where
  tree :=
    { entries := [(["p"], .directory), (["p", "tsconfig.json"], .file (Text.utf8 strayText))]
      distinct := by decide
      named := by decide
      housed := by decide }

theorem breaksOff_stray :
    BreaksOff stray "/p/tsconfig.json" strayEntries (.file ⟨.unencodable, strayPath⟩) := by
  have real : stray.realPath "/p/tsconfig.json" = .ok "/p/tsconfig.json" := by decide +kernel
  have failed : extended? stray "/p/tsconfig.json" (some (.text strayTarget)) =
      .error ⟨.unencodable, strayPath⟩ := by
    decide +kernel
  exact .untold (.own real) (by decide) failed

end ModuleAtlas.Configuration
