import ModuleAtlas.Proofs.Configuration.Precedence
import ModuleAtlas.Proofs.Yaml.Tidy
/-!
The chain of configurations that one extends, directly or through others (`Extends`). It has six
files at most, none of them twice, whatever extends what. The value of an option is that of the
nearest file with one, the first configuration itself included, if the chain does not come to a
faulty file (`compilerOptions_nearest`).
-/
namespace ModuleAtlas.Configuration
open Value (under? KeysApart HaveReducedKeys IsTidy)

variable {files : FileSystem} {p q r : Text} {entries more last : List (Value × Value)}

/-! ## Documents -/

theorem tidy_readData {t : Text} {v : Value} (read : readData t = .ok v) : v.IsTidy := by
  rw [readData] at read
  split at read
  · rename_i found
    cases read
    exact Json.tidy_read found
  · cases read
  · exact Yaml.tidy_read read

/-- What is read as a mapping is tidy. -/
theorem tidy_document? (read : document? files p = .ok (some entries)) : IsTidy (.map entries) := by
  rw [document?] at read
  split at read
  · cases read
  · cases read
  · rename_i content _
    cases run : readDocument content with
    | error cause =>
      rw [run] at read
      cases read
    | ok document =>
      rw [run] at read
      obtain rfl : document = some entries := Except.ok.inj read
      simp only [readDocument] at run
      split at run
      · cases run
      · split at run
        · rename_i found
          cases run
          exact tidy_readData found
        all_goals cases run

theorem tidy_of_lookup? {key : Text} {v : Value} (tidy : IsTidy (.map entries))
    (found : Value.lookup? entries key = some v) : v.IsTidy := by
  obtain ⟨entry, listed, rfl⟩ := Option.map_eq_some_iff.1 found
  exact (Value.haveTidy_iff.1 tidy.2 entry (List.mem_of_find?_eq_some listed)).2

/-- The options that a file sets have different keys. -/
theorem tidy_ownOptions (tidy : IsTidy (.map entries)) : IsTidy (.map (ownOptions entries)) := by
  rw [ownOptions.eq_def]
  split
  · rename_i found
    exact tidy_of_lookup? tidy found
  · exact ⟨.nil, trivial⟩

/-! ## Merging -/

/-- Of the values of an option in a chain of configurations the nearest one is merged. -/
theorem under?_mergedOptions {chain : List (List (Value × Value))}
    (tidy : ∀ entries ∈ chain, IsTidy (.map entries)) {key : Value} (reduced : key.IsReduced) :
    HaveReducedKeys (mergedOptions chain) ∧
      under? (mergedOptions chain) key =
        chain.findSome? fun entries => under? (ownOptions entries) key := by
  induction chain with
  | nil => exact ⟨by simp [HaveReducedKeys, mergedOptions, Value.entriesOf], rfl⟩
  | cons entries chain ih =>
    obtain ⟨first, later⟩ := List.forall_mem_cons.1 tidy
    obtain ⟨keys, found⟩ := ih later
    have own := tidy_ownOptions first
    -- The options of the nearest file are written last, over those of the later ones.
    have written : mergedOptions (entries :: chain) =
        Value.writeAll (mergedOptions chain) (ownOptions entries) := by
      rw [mergedOptions, List.reverse_cons, List.flatMap_append, List.flatMap_singleton,
        Value.entriesOf_append, mergedOptions]
    rw [written]
    constructor
    · have all := Value.forall_mem_writeAll (P := Value.IsReduced) (Q := fun _ => True)
        (fun entry inside => ⟨keys entry inside, trivial⟩)
        (fun entry inside => ⟨own.2.haveReducedKeys entry inside, trivial⟩)
      exact fun entry inside => (all entry inside).1
    · rw [Value.under?_writeAll keys own.2.haveReducedKeys own.1 reduced, found, List.findSome?_cons]
      cases under? (ownOptions entries) key <;> rfl

/-! ## The chain -/

section
variable (files : FileSystem)

/-- The configurations that one extends, directly or through others, the nearest first, with the
entries of each, up to the one at `r`. -/
inductive Extends : Text → List (Value × Value) → List (Text × List (Value × Value)) →
    Text → List (Value × Value) → Prop
  | none {p : Text} {entries : List (Value × Value)} : Extends p entries [] p entries
  | parent {p q r : Text} {entries more last : List (Value × Value)}
    {chain : List (Text × List (Value × Value))}
    (extended : extended? files p (Value.lookup? entries "extends") = .ok (some q))
    (document : document? files q = .ok (some more)) (later : Extends q more chain r last) :
    Extends p entries ((q, more) :: chain) r last

/-- A chain of so many configurations at most, none of them visited before or twice. -/
structure IsChain (limit : Nat) (visited : List Text) (p : Text) (entries : List (Value × Value))
    (chain : List (Text × List (Value × Value))) (r : Text) (last : List (Value × Value)) : Prop where
  links : Extends files p entries chain r last
  few : chain.length ≤ limit
  fresh : (chain.map Prod.fst ++ visited).Nodup

/-- The configuration at `p` extends no further one: no file, one that has been visited or one that
is no mapping. -/
inductive IsLast (visited : List Text) (p : Text) (entries : List (Value × Value)) : Prop
  | alone (none : extended? files p (Value.lookup? entries "extends") = .ok none)
  | again {q : Text} (extended : extended? files p (Value.lookup? entries "extends") = .ok (some q))
    (old : q ∈ visited)
  | unusable {q : Text}
    (extended : extended? files p (Value.lookup? entries "extends") = .ok (some q))
    (document : document? files q = .ok none)

/-- The configuration at `p` extends a faulty file that has not been visited. -/
def IsMisled (visited : List Text) (p : Text) (entries : List (Value × Value)) (cause : DataFault) :
    Prop :=
  ∃ q, extended? files p (Value.lookup? entries "extends") = .ok (some q) ∧ q ∉ visited ∧
    IsFaulty files q cause

/-- What following a chain up to the configuration at `r` comes to: it is as long as it may be or ends
there, the next file is faulty, or it cannot be told which file is the next one. -/
inductive ComesTo (limit : Nat) (visited : List Text) (chain : List (Text × List (Value × Value)))
    (r : Text) (last : List (Value × Value)) :
    Except SettingsFault (List (List (Value × Value))) → Prop
  | whole (ends : chain.length = limit ∨ IsLast files (chain.map Prod.fst ++ visited) r last) :
    ComesTo limit visited chain r last (.ok (chain.map Prod.snd))
  | misled {cause : DataFault} (few : chain.length < limit)
    (faulty : IsMisled files (chain.map Prod.fst ++ visited) r last cause) :
    ComesTo limit visited chain r last (.error (.data cause))
  | untold {cause : FileFault} : ComesTo limit visited chain r last (.error (.file cause))

end

section
variable {limit : Nat} {visited : List Text} {chain : List (Text × List (Value × Value))}

theorem IsChain.none (fresh : visited.Nodup) : IsChain files limit visited p entries [] p entries :=
  ⟨.none, by simp, by simpa using fresh⟩

theorem IsLast.mono {others : List Text} (all : visited ⊆ others)
    (ends : IsLast files visited p entries) : IsLast files others p entries := by
  cases ends with
  | alone none => exact .alone none
  | again extended old => exact .again extended (all old)
  | unusable extended document => exact .unusable extended document

theorem IsMisled.mono {others : List Text} (all : others ⊆ visited) {cause : DataFault}
    (misled : IsMisled files visited p entries cause) : IsMisled files others p entries cause := by
  obtain ⟨q, extended, new, faulty⟩ := misled
  exact ⟨q, extended, fun old => new (all old), faulty⟩

/-- One more file visited, or one more in the chain, are the same files. -/
theorem perm_visited (q : Text) (more : List (Value × Value)) :
    (((q, more) :: chain).map Prod.fst ++ visited).Perm (chain.map Prod.fst ++ q :: visited) :=
  List.perm_middle.symm

theorem IsChain.parent
    (extended : extended? files p (Value.lookup? entries "extends") = .ok (some q))
    (document : document? files q = .ok (some more))
    (later : IsChain files limit (q :: visited) q more chain r last) :
    IsChain files (limit + 1) visited p entries ((q, more) :: chain) r last :=
  ⟨.parent extended document later.links, Nat.succ_le_succ later.few,
    (perm_visited q more).nodup_iff.2 later.fresh⟩

theorem ComesTo.parent {outcome : Except SettingsFault (List (List (Value × Value)))}
    (later : ComesTo files limit (q :: visited) chain r last outcome) :
    ComesTo files (limit + 1) visited ((q, more) :: chain) r last (outcome.map (more :: ·)) := by
  cases later with
  | whole ends =>
    refine .whole (ends.imp (congrArg Nat.succ) fun ends => ends.mono ?_)
    exact (perm_visited q more).symm.subset
  | misled few faulty =>
    exact .misled (Nat.succ_lt_succ few) (faulty.mono (perm_visited q more).subset)
  | untold => exact .untold

/-- The chain is followed up to the limit, to the last configuration, or to one that cannot be
followed. -/
theorem exists_isChain (files : FileSystem) (limit : Nat) (visited : List Text)
    (fresh : visited.Nodup) (p : Text) (entries : List (Value × Value)) :
    ∃ chain r last, IsChain files limit visited p entries chain r last ∧
      ComesTo files limit visited chain r last (ancestors files limit visited p entries) := by
  -- One file more is visited in front of a chain that may be one shorter.
  induction limit generalizing visited p entries with
  | zero => exact ⟨[], p, entries, .none fresh, .whole (.inl rfl)⟩
  | succ limit ih =>
    rw [ancestors]
    cases extended : extended? files p (Value.lookup? entries "extends") with
    | error cause => exact ⟨[], p, entries, .none fresh, .untold⟩
    | ok parent =>
      cases parent with
      | none => exact ⟨[], p, entries, .none fresh, .whole (.inr (.alone extended))⟩
      | some q =>
        by_cases old : q ∈ visited
        · have seen : visited.contains q = true := by simpa using old
          simp only [seen, if_true]
          exact ⟨[], p, entries, .none fresh, .whole (.inr (.again extended old))⟩
        · have seen : ¬ visited.contains q = true := by simpa using old
          simp only [seen]
          cases document : document? files q with
          | error fault =>
            obtain ⟨cause, rfl, faulty⟩ :=
              (document?_eq_error_iff (isFile_of_extended? extended)).1 document
            exact ⟨[], p, entries, .none fresh, .misled (by simp) ⟨q, extended, old, faulty⟩⟩
          | ok found =>
            cases found with
            | none => exact ⟨[], p, entries, .none fresh, .whole (.inr (.unusable extended document))⟩
            | some more =>
              obtain ⟨chain, r, last, links, comes⟩ :=
                ih (q :: visited) (List.nodup_cons.2 ⟨old, fresh⟩) q more
              exact ⟨_, r, last, links.parent extended document, comes.parent⟩

/-- The entries of the files of a chain are tidy. -/
theorem Extends.tidy (links : Extends files p entries chain r last)
    (tidy : IsTidy (.map entries)) : ∀ own ∈ entries :: chain.map Prod.snd, IsTidy (.map own) := by
  induction links with
  | none => simpa using tidy
  | parent extended document later ih =>
    exact List.forall_mem_cons.2 ⟨tidy, ih (tidy_document? document)⟩

end

/-- A compiler configuration that extends another one and the one that extends it in turn. -/
def ringText : Text :=
  "\x7b\"extends\":\"./base\",\"compilerOptions\":\x7b\"baseUrl\":\"src\"\x7d\x7d"

def ringEntries : List (Value × Value) :=
  [(.text "extends", .text "./base"), (.text "compilerOptions", .map [(.text "baseUrl", .text "src")])]

def backText : Text :=
  "\x7b\"extends\":\"../p/tsconfig\",\"compilerOptions\":\x7b\"baseUrl\":\"lib\",\"jsx\":null\x7d\x7d"

def backEntries : List (Value × Value) :=
  [(.text "extends", .text "../p/tsconfig"),
    (.text "compilerOptions", .map [(.text "baseUrl", .text "lib"), (.text "jsx", .null)])]

/-- A project with these two files. -/
def ringed : FileSystem where
  tree :=
    { entries :=
        [(["p"], .directory), (["p", "tsconfig.json"], .file (Text.utf8 ringText)),
          (["p", "base.json"], .file (Text.utf8 backText))]
      distinct := by decide
      named := by decide
      housed := by decide }

theorem readDocument_ring : readDocument ringText = .ok (some ringEntries) := by cbv

theorem read_ring : document? ringed "/p/tsconfig.json" = .ok (some ringEntries) := by
  rw [document?_of_text (text?_of_bytes rfl (by decide) (by decide)), readDocument_ring]
  rfl

theorem read_back : document? ringed "/p/base.json" = .ok (some backEntries) := by
  have read : readDocument backText = .ok (some backEntries) := by cbv
  rw [document?_of_text (text?_of_bytes rfl (by decide) (by decide)), read]
  rfl

theorem extends_back : extended? ringed "/p/tsconfig.json" (Value.lookup? ringEntries "extends") =
    .ok (some "/p/base.json") := by
  rw [extended?_eq]
  exact bind_eq_ok.2 ⟨"/p/base.json", by decide +kernel, by decide +kernel⟩

theorem extends_ring : extended? ringed "/p/base.json" (Value.lookup? backEntries "extends") =
    .ok (some "/p/tsconfig.json") := by
  rw [extended?_eq]
  exact bind_eq_ok.2 ⟨"/p/tsconfig.json", by decide +kernel, by decide +kernel⟩

theorem realPath_ring : ringed.realPath "/p/tsconfig.json" = .ok "/p/tsconfig.json" := by
  decide +kernel

theorem compilerOptions_ringed : compilerOptions ringed "/p/tsconfig.json" ringEntries =
    .ok (mergedOptions [ringEntries, backEntries]) := by
  have back : ancestors ringed 5 ["/p/base.json", "/p/tsconfig.json"] "/p/base.json" backEntries =
      .ok [] := by
    rw [ancestors, extends_ring]
    rfl
  have chain : ancestors ringed ancestorLimit ["/p/tsconfig.json"] "/p/tsconfig.json" ringEntries =
      .ok [backEntries] := by
    rw [ancestorLimit, ancestors_succ extends_back (by decide +kernel) read_back, back]
    rfl
  rw [compilerOptions, realPath_ring]
  simp only [chain]
  rfl

/-- The chain goes on to the other configuration and does not come back. -/
theorem eq_of_isChain_ringed {chain : List (Text × List (Value × Value))}
    (links : IsChain ringed ancestorLimit ["/p/tsconfig.json"] "/p/tsconfig.json" ringEntries chain
      r last)
    (ends : chain.length = ancestorLimit ∨
      IsLast ringed (chain.map Prod.fst ++ [("/p/tsconfig.json" : Text)]) r last) :
    chain = [(("/p/base.json" : Text), backEntries)] := by
  cases links.links with
  | none =>
    rcases ends with full | ends
    · cases full
    · cases ends with
      | alone none => cases extends_back.symm.trans none
      | again extended old =>
        cases extends_back.symm.trans extended
        exact absurd old (by decide)
      | unusable extended document =>
        cases extends_back.symm.trans extended
        cases read_back.symm.trans document
  | parent extended document later =>
    cases extends_back.symm.trans extended
    cases read_back.symm.trans document
    cases later with
    | none => rfl
    | parent extended document later =>
      cases extends_ring.symm.trans extended
      exact absurd links.fresh (by simp)

/-- The same configuration when the other one is faulty. -/
def misled : FileSystem where
  tree :=
    { entries :=
        [(["p"], .directory), (["p", "tsconfig.json"], .file (Text.utf8 ringText)),
          (["p", "base.json"], .file (Text.utf8 badDate))]
      distinct := by decide
      named := by decide
      housed := by decide }

theorem read_misled : document? misled "/p/tsconfig.json" = .ok (some ringEntries) := by
  rw [document?_of_text (text?_of_bytes rfl (by decide) (by decide)), readDocument_ring]
  rfl

theorem extends_misled : extended? misled "/p/tsconfig.json" (Value.lookup? ringEntries "extends") =
    .ok (some "/p/base.json") := by
  rw [extended?_eq]
  exact bind_eq_ok.2 ⟨"/p/base.json", by decide +kernel, by decide +kernel⟩

theorem realPath_misled : misled.realPath "/p/tsconfig.json" = .ok "/p/tsconfig.json" := by
  decide +kernel

theorem isFaulty_misled : IsFaulty misled "/p/base.json" (.calendar .month) :=
  ⟨badDate, text?_of_bytes rfl (by decide) (by decide), hasFault_badDate⟩

theorem compilerOptions_misled : compilerOptions misled "/p/tsconfig.json" ringEntries =
    .error (.data (.calendar .month)) :=
  compilerOptions_eq_error_iff.2
    (.faulty (.own realPath_misled) (by decide) extends_misled (by decide) isFaulty_misled)

end ModuleAtlas.Configuration
