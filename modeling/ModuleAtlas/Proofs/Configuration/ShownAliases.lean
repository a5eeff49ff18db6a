import ModuleAtlas.Proofs.Configuration.AliasPairs
import ModuleAtlas.Proofs.Table
/-!
What is read from a script that exports aliases. No base directory is found in it, since the word
for it stands in comments at most (`baseSetting?_exports`); the block of aliases that counts is the
one that is written (`aliasBlockOf?_exports`). So the settings have the pairs that are written, the
last of those with one key, and are otherwise what they were (`aliases_shown`).
-/
namespace ModuleAtlas.Configuration
open Text

/-! ## Signs and words -/

section
variable {brace : CodePoint} (isBrace : brace = '{' ∨ brace = '}')
include isBrace

theorem AliasKey.notMem_text (key : AliasKey) : brace ∉ key.text := by
  have quote : brace ∉ key.quote := by
    intro same
    have quotes := key.quotes brace same
    rcases isBrace with rfl | rfl <;> exact absurd quotes (by decide)
  have name : brace ∉ key.name := by
    intro inside
    have known := key.continues_name brace inside
    rcases isBrace with rfl | rfl <;> exact absurd known (by decide)
  simpa [AliasKey.text, name] using quote

theorem Literal.notMem_text (target : Literal) : brace ∉ target.text := by
  have words : brace ∉ target.words := by
    intro inside
    obtain ⟨-, -, left, right⟩ := target.plain brace inside
    rcases isBrace with same | same
    · exact left same
    · exact right same
  have quote : brace ≠ target.quote := by
    intro same
    have quotes := target.quotes
    rw [← same] at quotes
    rcases isBrace with rfl | rfl <;> exact absurd quotes (by decide)
  simp [Literal.text, words, quote]

end

theorem visible_of_all (word : Text) (all : (word.all fun c => !isBlank c) = true) :
    ∀ c ∈ word, isBlank c = false := by
  intro c inside
  simpa using List.all_eq_true.1 all c inside

theorem visible_baseUrl : ∀ c ∈ ("baseUrl" : Text), isBlank c = false :=
  visible_of_all "baseUrl" (by decide)

theorem notMem_baseUrl_of_isQuote {c : CodePoint} (quotes : isQuote c = true) :
    c ∉ ("baseUrl" : Text) := by
  rcases isQuote_iff.1 quotes with rfl | rfl <;> decide

/-- Words in quotes that do not have the word. -/
theorem avoids_quoted {t : Text} (free : ¬ "baseUrl" <:+: t) {quote : CodePoint}
    (quotes : isQuote quote = true) : Avoids "baseUrl" (quote :: (t ++ [quote])) := by
  have other := notMem_baseUrl_of_isQuote quotes
  exact .append (s := [quote]) (.of_others (by decide) (by simpa using other)) (.closed free other)

/-- What opens with a label opens with its word. -/
theorem needs_label {α : Type} (word : Text) (read : Text → Option (α × Text)) :
    Needs (fun t => (label? word t).bind read) word := by
  intro t found recognised
  obtain ⟨u, labelled, -⟩ := Option.bind_eq_some_iff.1 recognised
  obtain ⟨v, opens, -⟩ := Option.bind_eq_some_iff.1 labelled
  exact ⟨v, (dropHead?_eq_some_iff.1 opens).symm⟩

theorem suffix_of_label? {word t u : Text} (labelled : label? word t = some u) : u <:+ t := by
  obtain ⟨v, opens, colon⟩ := Option.bind_eq_some_iff.1 labelled
  obtain ⟨w, sign, rfl⟩ := Option.map_eq_some_iff.1 colon
  have first : v <:+ t := ⟨word, (dropHead?_eq_some_iff.1 opens).symm⟩
  have second : w <:+ skipBlank v := ⟨[':'], (dropHead?_eq_some_iff.1 sign).symm⟩
  exact (List.dropWhile_suffix _).trans (second.trans ((List.dropWhile_suffix _).trans first))

/-- A block of resolution settings has a brace. -/
theorem mem_of_resolveBlock? {t : Text} {found : Text × Text} (read : resolveBlock? t = some found) :
    .scalar '{' ∈ t := by
  obtain ⟨u, labelled, inside⟩ := Option.bind_eq_some_iff.1 read
  obtain ⟨v, opens, -⟩ := Option.bind_eq_some_iff.1 inside
  refine (suffix_of_label? labelled).mem ?_
  simp [dropHead?_eq_some_iff.1 opens]

section
variable {G : Type} {write : G → Text} (blank : ∀ gap, ∀ c ∈ write gap, isBlank c = true)
include blank

/-! ## Blocks -/

section
variable {brace : CodePoint} (isBrace : brace = '{' ∨ brace = '}')
include isBrace

theorem notMem_gap (gap : G) : brace ∉ write gap := by
  intro inside
  have isBlank := blank gap brace inside
  rcases isBrace with rfl | rfl <;> exact absurd isBlank (by decide)

theorem Form.notMem_text (form : Form G) : brace ∉ form.front write ∧ brace ∉ form.back write := by
  have gap := notMem_gap blank isBrace
  cases form with
  | plain => simp [Form.front, Form.back]
  | call joined inside before after behind =>
    rcases isBrace with rfl | rfl <;> cases joined <;>
      simp [Form.front, Form.back, functionName, gap]

/-- Nothing among some pairs opens or closes a block. -/
theorem AliasPairs.notMem_text (pairs : AliasPairs G) : brace ∉ pairs.text write := by
  have gap := notMem_gap blank isBrace
  have pair : ∀ pair : AliasPair G, brace ∉ pair.text write ∧ brace ∉ pair.form.back write := by
    intro pair
    have colon : brace ≠ ':' := by rcases isBrace with rfl | rfl <;> decide
    have key := pair.key.notMem_text isBrace
    have target := pair.target.notMem_text isBrace
    have form := pair.form.notMem_text blank isBrace
    simp [AliasPair.text, gap, key, target, form, colon]
  have comma : brace ≠ ',' := by rcases isBrace with rfl | rfl <;> decide
  induction pairs with
  | none gap => exact notMem_gap blank isBrace gap
  | last before item behind => simp [AliasPairs.text, gap, pair]
  | more before item behind rest ih => simp [AliasPairs.text, gap, pair, ih, comma]

end

theorem label?_text (word : Text) (label : Label G) {c : CodePoint} (visible : isBlank c = false)
    (rest : Text) : label? word (label.text write word ++ c :: rest) = some (c :: rest) := by
  have colon : ∀ tail : Text, skipBlank (write label.before ++ .scalar ':' :: tail) =
      .scalar ':' :: tail :=
    fun _ => skipBlank_append (blank label.before) (by decide) _
  have read : ∀ tail : Text, dropHead? [':'] (.scalar ':' :: tail) = some tail :=
    fun _ => dropHead?_eq_some_iff.2 rfl
  rw [label?, Label.text, List.append_assoc, dropHead?_eq_some_iff.2 rfl, Option.bind_some,
    List.append_assoc, List.cons_append, colon, read, Option.map_some,
    skipBlank_append (blank label.after) visible]

/-- A block of aliases is recognised, up to its closing brace. -/
theorem aliasBlock?_text (block : AliasBlock G) (rest : Text) :
    aliasBlock? (block.text write ++ rest) = some (block.pairs.text write, rest) := by
  have whole : block.text write ++ rest =
      block.label.text write "alias" ++
        .scalar '{' :: (block.pairs.text write ++ .scalar '}' :: rest) := by
    simp [AliasBlock.text]
  have read : ∀ tail : Text, dropHead? ['{'] (.scalar '{' :: tail) = some tail :=
    fun _ => dropHead?_eq_some_iff.2 rfl
  rw [whole, aliasBlock?, label?_text blank "alias" block.label (by decide), Option.bind_some, block?,
    read, Option.bind_some, cutAt?_singleton (block.pairs.notMem_text blank (.inr rfl))]

theorem resolveBlock?_text (nesting : Nesting G) (block : AliasBlock G) (rest : Text) :
    resolveBlock? (nesting.front write ++ (block.text write ++ rest)) =
      some (block.pairs.text write, rest) := by
  have whole : nesting.front write ++ (block.text write ++ rest) = nesting.label.text write "resolve" ++
      .scalar '{' :: (write nesting.inside ++ (block.text write ++ rest)) := by
    simp [Nesting.front]
  have read : ∀ tail : Text, dropHead? ['{'] (.scalar '{' :: tail) = some tail :=
    fun _ => dropHead?_eq_some_iff.2 rfl
  have word : skipBlank (write nesting.inside ++ (block.text write ++ rest)) =
      block.text write ++ rest := skipBlank_append (blank nesting.inside) (by decide) _
  rw [whole, resolveBlock?, label?_text blank "resolve" nesting.label (by decide), Option.bind_some,
    read, Option.bind_some, word, aliasBlock?_text blank]

/-! ## Words that are not there -/

section
variable {word : Text} (some : word ≠ []) (visible : ∀ c ∈ word, isBlank c = false)
include visible

theorem notMem_of_visible (gap : G) : ∀ c ∈ write gap, c ∉ word := by
  intro c inside held
  have isBlank := blank gap c inside
  rw [visible c held] at isBlank
  cases isBlank

include some

theorem avoids_gap (gap : G) : Avoids word (write gap) :=
  .of_others some (notMem_of_visible blank visible gap)

theorem avoids_opening (signs : .scalar '.' ∉ word ∧ .scalar '=' ∉ word ∧ .scalar '{' ∉ word)
    (free : ¬ word <:+: "module" ∧ ¬ word <:+: "exports") (x : Exports G) :
    Avoids word (x.opening write) := by
  have gap := notMem_of_visible blank visible
  have nothing : ¬ word <:+: [] := fun inside => some (List.infix_nil.1 inside)
  obtain ⟨point, equals, brace⟩ := signs
  have value : Avoids word (write x.brace ++ .scalar '{' :: write x.inside) :=
    .spaced (s := []) nothing (gap x.brace) brace (avoids_gap blank some visible x.inside)
  exact (avoids_gap blank some visible x.start).append
    (.spaced free.1 (gap x.point) point ((avoids_gap blank some visible x.word).append
      (.spaced free.2 (gap x.equals) equals value)))

theorem avoids_label {other : Text} (free : ¬ word <:+: other) (colon : .scalar ':' ∉ word)
    (label : Label G) : Avoids word (label.text write other) :=
  .spaced free (notMem_of_visible blank visible label.before) colon
    (avoids_gap blank some visible label.after)

end

/-! ## No base directory -/

theorem avoids_pair (pair : AliasPair G) : Avoids "baseUrl" (pair.text write) := by
  have gap := notMem_of_visible blank visible_baseUrl
  have gaps := avoids_gap blank (by decide) visible_baseUrl
  have nothing : ¬ "baseUrl" <:+: ([] : Text) := by decide
  have target : Avoids "baseUrl" pair.target.text := avoids_quoted pair.target.free pair.target.quotes
  have front : Avoids "baseUrl" (pair.form.front write) := by
    cases pair.form with
    | plain => trivial
    | call joined inside before after behind =>
      have function : ¬ "baseUrl" <:+: functionName joined := by cases joined <;> decide
      exact .beyond function (by decide) ((gaps inside).append
        (.spaced (by decide) (gap before) (by decide) (gaps after)))
  have value := (gaps pair.after).append (front.append target)
  rw [AliasPair.text, AliasKey.text]
  cases same : pair.key.quote with
  | some quote =>
    have key := avoids_quoted pair.key.free (pair.key.quotes quote (by simp [same]))
    exact key.append (.spaced (s := []) nothing (gap pair.before) (by decide) value)
  | none =>
    have key : Avoids "baseUrl" (pair.key.name ++ (write pair.before ++ (':' : CodePoint) :: _)) :=
      .spaced pair.key.free (gap pair.before) (by decide) value
    simpa using key

theorem avoids_pairs (pairs : AliasPairs G) : Avoids "baseUrl" (pairs.text write) := by
  have gap := notMem_of_visible blank visible_baseUrl
  have gaps := avoids_gap blank (by decide) visible_baseUrl
  have nothing : ¬ "baseUrl" <:+: ([] : Text) := by decide
  have back : ∀ form : Form G, Avoids "baseUrl" (form.back write) := by
    intro form
    cases form with
    | plain => trivial
    | call _ _ _ _ behind => exact .spaced (s := []) nothing (gap behind) (by decide) trivial
  induction pairs with
  | none gap => exact gaps gap
  | last before pair behind =>
    exact (gaps before).append ((avoids_pair blank pair).append ((back pair.form).append (gaps behind)))
  | more before pair behind rest ih =>
    exact (gaps before).append ((avoids_pair blank pair).append ((back pair.form).append
      (.spaced (s := []) nothing (gap behind) (by decide) ih)))

/-- The word for a base directory is nowhere in the script. -/
theorem avoids_exports (x : Exports G) : Avoids "baseUrl" (x.text write) := by
  have gap := notMem_of_visible blank visible_baseUrl
  have gaps := avoids_gap blank (by decide) visible_baseUrl
  have nothing : ¬ "baseUrl" <:+: ([] : Text) := by decide
  have label : ∀ (word : Text) (label : Label G), ¬ "baseUrl" <:+: word →
      Avoids "baseUrl" (label.text write word) := fun _ label free =>
    avoids_label blank (by decide) visible_baseUrl free (by decide) label
  have brace : ∀ {t : Text}, Avoids "baseUrl" t → Avoids "baseUrl" (.scalar '{' :: t) := fun later =>
    .beyond (s := []) nothing (by decide) later
  have opening := avoids_opening blank (by decide) visible_baseUrl (by decide) (by decide) x
  have ending : Avoids "baseUrl" (x.ending write) :=
    .spaced (s := []) nothing (gap x.close) (by decide)
      (.spaced (s := []) nothing (gap x.stop) (by decide) (gaps x.last))
  have block : Avoids "baseUrl" (x.block.text write) :=
    (label "alias" x.block.label (by decide)).append (brace ((avoids_pairs blank x.block.pairs).append
      (.beyond (s := []) nothing (by decide) trivial)))
  rw [Exports.text]
  cases x.nesting with
  | none =>
    exact opening.append (.append (s := []) trivial
      (block.append (.append (s := []) trivial ending)))
  | some nesting =>
    have front : Avoids "baseUrl" (nesting.front write) :=
      (label "resolve" nesting.label (by decide)).append (brace (gaps nesting.inside))
    have back : Avoids "baseUrl" (nesting.back write) :=
      .spaced (s := []) nothing (gap nesting.behind) (by decide) trivial
    exact opening.append (front.append (block.append (back.append ending)))

theorem baseSetting?_exports (x : Exports G) : first? (anywhere baseSetting?) (x.text write) = none := by
  have barren := (avoids_exports blank x).barren (needs_label "baseUrl" literal?) []
  have nothing := firstFrom?_barren barren true
  rw [List.append_nil] at nothing
  exact nothing

/-! ## The block that counts -/

/-- Without resolution settings no block of them is found: there is no brace behind the one that
opens the aliases. -/
theorem resolveBlock?_flat (x : Exports G) (flat : x.nesting = none) :
    first? (anywhere resolveBlock?) (x.text write) = none := by
  have visible := visible_of_all "resolve" (by decide)
  have opening : Avoids "resolve"
      (x.opening write ++ (x.block.label.text write "alias" ++ [.scalar '{'])) :=
    (avoids_opening blank (by decide) visible (by decide) (by decide) x).append
      ((avoids_label blank (by decide) visible (by decide) (by decide) x.block.label).append
        (.beyond (s := []) (by decide) (by decide) trivial))
  have tail : .scalar '{' ∉ x.block.pairs.text write ++ .scalar '}' :: x.ending write := by
    have gap := notMem_gap blank (.inl (rfl : CodePoint.scalar '{' = '{'))
    have pairs := x.block.pairs.notMem_text blank (.inl rfl)
    simp [Exports.ending, gap, pairs]
  have barren : Barren (anywhere resolveBlock?) []
      (x.block.pairs.text write ++ .scalar '}' :: x.ending write) := by
    refine barren_of_suffixes fun u _ ends _ => ?_
    rw [List.append_nil, anywhere, Option.eq_none_iff_forall_ne_some]
    exact fun found read => tail (ends.mem (mem_of_resolveBlock? read))
  have whole : x.text write =
      (x.opening write ++ (x.block.label.text write "alias" ++ [.scalar '{'])) ++
      ((x.block.pairs.text write ++ .scalar '}' :: x.ending write) ++ []) := by
    simp [Exports.text, AliasBlock.text, flat]
  have needs : Needs resolveBlock? "resolve" := needs_label "resolve" _
  rw [whole, first?, firstFrom?_barren (opening.barren needs _), firstFrom?_barren barren]
  rfl

theorem aliasBlockOf?_exports (x : Exports G) :
    aliasBlockOf? (x.text write) = some (x.block.pairs.text write) := by
  cases nested : x.nesting with
  | some nesting =>
    have whole : x.text write = x.opening write ++ (nesting.front write ++ (x.block.text write ++
        (nesting.back write ++ x.ending write))) := by
      simp [Exports.text, nested]
    have visible := visible_of_all "resolve" (by decide)
    have opening := avoids_opening blank (by decide) visible (by decide) (by decide) x
    have needs : Needs resolveBlock? "resolve" := needs_label "resolve" _
    have read := resolveBlock?_text blank nesting x.block (nesting.back write ++ x.ending write)
    have found : first? (anywhere resolveBlock?) (x.text write) = some (x.block.pairs.text write) := by
      rw [whole, first?, firstFrom?_barren (opening.barren needs _)]
      exact firstFrom?_found (List.cons_ne_nil _ _) read
    rw [aliasBlockOf?, found]
  | none =>
    have whole : x.text write = x.opening write ++ (x.block.text write ++ x.ending write) := by
      simp [Exports.text, nested]
    have visible := visible_of_all "alias" (by decide)
    have opening := avoids_opening blank (by decide) visible (by decide) (by decide) x
    have needs : Needs aliasBlock? "alias" := needs_label "alias" _
    have read := aliasBlock?_text blank x.block (x.ending write)
    have found : first? (anywhere aliasBlock?) (x.text write) = some (x.block.pairs.text write) := by
      rw [whole, first?, firstFrom?_barren (opening.barren needs _)]
      exact firstFrom?_found (List.cons_ne_nil _ _) read
    rw [aliasBlockOf?, resolveBlock?_flat blank x nested, found]

/-- A script is read as the pairs that are written in it. -/
theorem readScript_exports {content : Text} {x : Exports G}
    (cleaned : withoutComments content = x.text write) (settings : Settings) :
    readScript content settings =
      { settings with aliases := settings.aliases.insertAll x.entries } := by
  have shown : scriptAliases (x.text write) = x.entries := by
    rw [scriptAliases, aliasBlockOf?_exports blank]
    exact occurrencesFrom_pairs blank x.block.pairs true
  rw [readScript, cleaned, baseSetting?_exports blank, shown]
  rfl

end

/-! ## Script files -/

/-- A script file that exports aliases sets the pairs that are written in it, the last of those with
one key, and leaves everything else in the settings as it was. -/
theorem aliases_shown (files : FileSystem) (p : Text) (x : ExportsFile)
    (written : files.text? p = .ok (some x.text)) (settings : Settings) :
    ∃ after, script files p settings = .ok after ∧
      after.baseUrl = settings.baseUrl ∧ after.source = settings.source ∧
      (∀ front key target back, x.exports.entries = front ++ (key, target) :: back →
        (∀ pair ∈ back, pair.1 ≠ key) → after.aliases.get? key = some target) ∧
      ∀ key, (∀ pair ∈ x.exports.entries, pair.1 ≠ key) →
        after.aliases.get? key = settings.aliases.get? key := by
  have read := readScript_exports isBlank_of_mem_blanks x.cleaned settings
  have shown : script files p settings =
      .ok { settings with aliases := settings.aliases.insertAll x.exports.entries } := by
    rw [script, content?, written, ← read]
    rfl
  refine ⟨_, shown, rfl, rfl, ?_, ?_⟩
  · intro front key target back split last
    simp only [split, Table.get?_insertAll, Table.get?_ofList_last last, Option.some_or]
  · intro key fresh
    have absent : (Table.ofList x.exports.entries).get? key = none := by
      rw [Option.eq_none_iff_forall_ne_some]
      intro target held
      obtain ⟨front, back, split, -⟩ := Table.get?_ofList_eq_some_iff.1 held
      exact fresh (key, target) (by simp [split]) rfl
    simp only [Table.get?_insertAll, absent, Option.none_or]

/-- A pair with a key that needs quotes, and two slashes in its target. -/
def called : AliasPair (List Aside) where
  key :=
    { first := '@'
      more := "ui/x"
      quote := some (.scalar '\'')
      opens := by decide
      continues := List.all_eq_true.1 (by decide)
      quotes := by simp [isQuote]
      bare := by simp
      free := by decide +kernel }
  before := []
  after := [.blank ' ' (by decide)]
  form := .call false [] [] [.blank ' ' (by decide)] []
  target :=
    { words := "src//ui"
      quote := '"'
      quotes := isQuote_quotationMark
      some := by decide
      plain := by simp [isQuote]
      free := by decide +kernel }

/-- A pair with a key without quotes. -/
def bare : AliasPair (List Aside) where
  key :=
    { first := 'l'
      more := "ib"
      quote := none
      opens := by decide
      continues := List.all_eq_true.1 (by decide)
      quotes := by simp
      bare := fun _ => List.all_eq_true.1 (by decide)
      free := by decide +kernel }
  before := []
  after := []
  form := .plain
  target :=
    { words := "old"
      quote := '\''
      quotes := isQuote_apostrophe
      some := by decide
      plain := by simp [isQuote]
      free := by decide +kernel }

/-- A pair with the same key in quotes. -/
def again : AliasPair (List Aside) where
  key := { bare.key with quote := some (.scalar '"'), quotes := by simp [isQuote], bare := by simp }
  before := [.blank '\t' (by decide)]
  after := []
  form := .call true [] [] [] [.blank ' ' (by decide)]
  target :=
    { words := "new"
      quote := '\''
      quotes := isQuote_apostrophe
      some := by decide
      plain := by simp [isQuote]
      free := by decide +kernel }

/-- A script with the three pairs, and with comments that look like pairs and like a base
directory. -/
def noted : ExportsFile where
  exports :=
    { start := [.filler (.block " baseUrl: 'no' " (by decide +kernel)), .blank '\n' (by decide)]
      point := []
      word := []
      equals := [.blank ' ' (by decide)]
      brace := [.blank ' ' (by decide)]
      inside := [.filler (.line " alias: \x7b" (by decide +kernel))]
      nesting := some
        { label := ⟨[], [.blank ' ' (by decide)]⟩
          inside := [.blank '\n' (by decide)]
          behind := [.blank ' ' (by decide)] }
      block :=
        { label := ⟨[.blank ' ' (by decide)], []⟩
          pairs :=
            .more [] called [.filler (.block "x: 'y'" (by decide +kernel))]
              (.more [.blank '\n' (by decide)] bare []
                (.last [] again [.filler (.line " \x7d" (by decide +kernel))])) }
      close := []
      stop := []
      last := [.blank '\n' (by decide)] }
  last := some " baseUrl: 'no'"
  single := by decide +kernel

/-- The text of the script. -/
def notedText : Text :=
  "/* baseUrl: 'no' */\nmodule.exports = \x7b// alias: \x7b\nresolve: \x7b\nalias :\x7b'@ui/x': " ++
    "path.resolve(__dirname, \"src//ui\")/*x: 'y'*/,\nlib:'old',\"lib\"\t:path.join(__dirname,'new' )" ++
    "// \x7d\n\x7d \x7d\x7d;\n// baseUrl: 'no'"

/-- A project with the script. -/
def notedProject : FileSystem where
  tree :=
    { entries := [(["craco.config.js"], .file (Text.utf8 notedText))]
      distinct := by decide
      named := by decide
      housed := by decide }

/-- Settings that know one of the keys and another one. -/
def priorSettings : Settings where
  baseUrl := "base"
  aliases := Table.ofList [("lib", "before"), ("@old", "kept")]

theorem noted_shown :
    notedProject.text? "/craco.config.js" = .ok (some noted.text) ∧
    ∃ after, script notedProject "/craco.config.js" priorSettings = .ok after ∧
      after.baseUrl = "base" ∧ after.source = none ∧
      after.aliases.get? "@ui/x" = some "src//ui" ∧ after.aliases.get? "lib" = some "new" ∧
      after.aliases.get? "@old" = some "kept" := by
  have text : noted.text = notedText := by decide +kernel
  have written : notedProject.text? "/craco.config.js" = .ok (some noted.text) := by
    rw [text]
    exact text?_of_bytes rfl (by decide +kernel) (by decide +kernel)
  have entries : noted.exports.entries =
      ([("@ui/x", "src//ui"), ("lib", "old"), ("lib", "new")] : List (Text × Text)) := rfl
  obtain ⟨after, read, base, source, set, kept⟩ :=
    aliases_shown notedProject "/craco.config.js" noted written priorSettings
  rw [entries] at set kept
  refine ⟨written, after, read, base, source, ?_, ?_, ?_⟩
  · exact set [] "@ui/x" "src//ui" [("lib", "old"), ("lib", "new")] rfl (by decide)
  · exact set [("@ui/x", "src//ui"), ("lib", "old")] "lib" "new" [] rfl (by decide)
  · exact (kept "@old" (by decide)).trans (by decide)

end ModuleAtlas.Configuration
