import ModuleAtlas.Proofs.Configuration.Commented
import ModuleAtlas.Proofs.Text.Occurrence
/-!
Scripts that export aliases, as they are written (`Exports`): any number of pairs of a key and a
literal, which may be an argument of a path function, in a block of aliases that may be one of
resolution settings. Between tokens there are gaps, with blanks and comments of any kind. Such a
script is read as what it says: the pairs, all of them and no others (`aliases_shown`).
-/
namespace ModuleAtlas.Configuration
open Text

/-! ## What is written -/

/-- What stands in a gap between tokens: a blank or, as in JSON texts, a comment. -/
inductive Aside
  | blank (c : CodePoint) (isBlank : Text.isBlank c = true)
  | filler (filler : Filler)

namespace Aside

/-- What is written. -/
def text : Aside → Text
  | blank c _ => [c]
  | filler part => part.text

/-- The blanks that are left without the comment. -/
def blanks : Aside → Text
  | blank c _ => [c]
  | filler part => part.spaces

/-- What is written in a gap. -/
def allText (gap : List Aside) : Text := gap.flatMap text

/-- The blanks of a gap that are left without its comments. -/
def allBlanks (gap : List Aside) : Text := gap.flatMap blanks

end Aside

/-- The key of an alias, in quotes or, where it could be an identifier, without. -/
structure AliasKey where
  first : CodePoint
  more : Text
  quote : Option CodePoint
  opens : opensKey first = true
  continues : ∀ c ∈ more, continuesKey c = true
  quotes : ∀ c ∈ quote, isQuote c = true
  bare : quote = none → ∀ c ∈ first :: more, isIdentifier c = true
  free : ¬ "baseUrl" <:+: first :: more

/-- The key itself. -/
def AliasKey.name (key : AliasKey) : Text := key.first :: key.more

/-- What is written for a key. -/
def AliasKey.text (key : AliasKey) : Text :=
  key.quote.toList ++ (key.name ++ key.quote.toList)

/-- The target of an alias, in quotes. -/
structure Literal where
  words : Text
  quote : CodePoint
  quotes : isQuote quote = true
  some : words ≠ []
  plain : ∀ c ∈ words, isQuote c = false ∧ c ≠ '\\' ∧ c ≠ '{' ∧ c ≠ '}'
  free : ¬ "baseUrl" <:+: words

/-- What is written for a target. -/
def Literal.text (target : Literal) : Text := target.quote :: (target.words ++ [target.quote])

section
variable (G : Type)

/-- How a target is given: as it is, or in a call of a path function with the current directory. -/
inductive Form
  | plain
  | call (joined : Bool) (inside before after behind : G)

/-- A key, a colon and a target. -/
structure AliasPair where
  key : AliasKey
  before : G
  after : G
  form : Form G
  target : Literal

/-- Pairs with commas between them, perhaps with one behind the last, and the gaps around them. -/
inductive AliasPairs
  | none (gap : G)
  | last (before : G) (pair : AliasPair G) (behind : G)
  | more (before : G) (pair : AliasPair G) (behind : G) (rest : AliasPairs)

/-- The gaps around the colon behind a word. -/
structure Label where
  before : G
  after : G

/-- A block of aliases. -/
structure AliasBlock where
  label : Label G
  pairs : AliasPairs G

/-- A block of resolution settings around a block of aliases. -/
structure Nesting where
  label : Label G
  inside : G
  behind : G

/-- A script that exports aliases. -/
structure Exports where
  start : G
  point : G
  word : G
  equals : G
  brace : G
  inside : G
  nesting : Option (Nesting G)
  block : AliasBlock G
  close : G
  stop : G
  last : G

end

section
variable {G : Type} (write : G → Text)

/-- The name of a path function. -/
def functionName (joined : Bool) : Text := if joined then "path.join" else "path.resolve"

/-- What is written in front of a target. -/
def Form.front : Form G → Text
  | plain => []
  | call joined inside before after _ =>
    functionName joined ++
      .scalar '(' :: (write inside ++
        (("__dirname" : Text) ++ (write before ++ .scalar ',' :: write after)))

/-- What is written behind a target. -/
def Form.back : Form G → Text
  | plain => []
  | call _ _ _ _ behind => write behind ++ [.scalar ')']

/-- What is written for a pair, up to the quote behind its target. -/
def AliasPair.text (pair : AliasPair G) : Text :=
  pair.key.text ++ (write pair.before ++
    .scalar ':' :: (write pair.after ++ (pair.form.front write ++ pair.target.text)))

/-- The pair itself. -/
def AliasPair.entry (pair : AliasPair G) : Text × Text := (pair.key.name, pair.target.words)

/-- What is written for some pairs. -/
def AliasPairs.text : AliasPairs G → Text
  | none gap => write gap
  | last before pair behind =>
    write before ++ (pair.text write ++ (pair.form.back write ++ write behind))
  | more before pair behind rest =>
    write before ++ (pair.text write ++
      (pair.form.back write ++ (write behind ++ .scalar ',' :: rest.text)))

/-- The pairs themselves. -/
def AliasPairs.entries : AliasPairs G → List (Text × Text)
  | none _ => []
  | last _ pair _ => [pair.entry]
  | more _ pair _ rest => pair.entry :: rest.entries

/-- What is written for a word and the colon behind it. -/
def Label.text (word : Text) (label : Label G) : Text :=
  word ++ (write label.before ++ .scalar ':' :: write label.after)

/-- What is written for a block of aliases. -/
def AliasBlock.text (block : AliasBlock G) : Text :=
  block.label.text write "alias" ++ .scalar '{' :: (block.pairs.text write ++ [.scalar '}'])

/-- What is written in front of a block of aliases. -/
def Nesting.front (nesting : Nesting G) : Text :=
  nesting.label.text write "resolve" ++ .scalar '{' :: write nesting.inside

/-- What is written behind a block of aliases. -/
def Nesting.back (nesting : Nesting G) : Text := write nesting.behind ++ [.scalar '}']

namespace Exports
variable (x : Exports G)

/-- What is written up to the settings. -/
def opening : Text :=
  write x.start ++ (("module" : Text) ++
    (write x.point ++ .scalar '.' :: (write x.word ++ (("exports" : Text) ++
    (write x.equals ++ .scalar '=' :: (write x.brace ++ .scalar '{' :: write x.inside))))))

/-- What is written behind the settings. -/
def ending : Text := write x.close ++ .scalar '}' :: (write x.stop ++ .scalar ';' :: write x.last)

/-- The whole text. -/
def text : Text :=
  x.opening write ++ (x.nesting.elim [] (·.front write) ++
    (x.block.text write ++ (x.nesting.elim [] (·.back write) ++ x.ending write)))

/-- The pairs that are exported. -/
def entries : List (Text × Text) := x.block.pairs.entries

end Exports

end

/-- A script file that exports aliases, with comments in its gaps and perhaps one more at its end,
without a line end. -/
structure ExportsFile where
  exports : Exports (List Aside)
  last : Option Text
  single : ∀ words ∈ last, .scalar '\n' ∉ words

/-- What is written in a script file. -/
def ExportsFile.text (x : ExportsFile) : Text := x.exports.text Aside.allText ++ lastText x.last

/-! ## What is left without comments -/

theorem isBlank_of_mem_blanks (gap : List Aside) : ∀ c ∈ Aside.allBlanks gap, isBlank c = true := by
  intro c inside
  obtain ⟨aside, -, here⟩ := List.mem_flatMap.1 inside
  cases aside with
  | blank d blank => exact List.mem_singleton.1 here ▸ blank
  | filler part =>
    have listed : c ∈ Filler.allSpaces [part] := List.mem_flatMap.2 ⟨part, by simp, here⟩
    exact isBlank_of_isSpace (Filler.isSpace_of_mem [part] c listed)

theorem Keeps.of_isBlank {c : CodePoint} (blank : isBlank c = true) : Keeps [c] := by
  refine .singleton ?_ ?_
  · rintro rfl
    exact absurd blank (by decide)
  · cases quote : isQuote c
    · rfl
    · rcases isQuote_iff.1 quote with rfl | rfl <;> exact absurd blank (by decide)

theorem Aside.leaves (gap : List Aside) : Leaves (allText gap) (allBlanks gap) := by
  induction gap with
  | nil => exact Keeps.nil.leaves
  | cons aside gap ih =>
    cases aside with
    | blank c blank => exact (Keeps.of_isBlank blank).leaves.append ih
    | filler part => exact part.leaves.append ih

/-- A literal is kept, whatever signs of comments are in it. -/
theorem Keeps.literal {quote : CodePoint} (quotes : isQuote quote = true) {t : Text}
    (plain : ∀ c ∈ t, isQuote c = false ∧ c ≠ '\\') : Keeps (quote :: (t ++ [quote])) := by
  have body : ∀ rest, withoutCommentsFrom (.literal quote) (t ++ quote :: rest) =
      t ++ quote :: withoutCommentsFrom .code rest := by
    intro rest
    induction t with
    | nil => rcases isQuote_iff.1 quotes with rfl | rfl <;> simp [withoutCommentsFrom]
    | cons c t ih =>
      obtain ⟨⟨noQuote, noEscape⟩, later⟩ := List.forall_mem_cons.1 plain
      have other : c ≠ quote := by
        rintro rfl
        rw [quotes] at noQuote
        cases noQuote
      rw [List.cons_append, withoutCommentsFrom_literal other noEscape, ih later, List.cons_append]
  intro rest
  have opened := body rest
  rcases isQuote_iff.1 quotes with rfl | rfl <;> simpa [withoutCommentsFrom, isQuote] using opened

theorem Keeps.aliasKey (key : AliasKey) : Keeps key.text := by
  have all : ∀ c ∈ key.name, continuesKey c = true := by
    refine List.forall_mem_cons.2 ⟨?_, key.continues⟩
    simp [continuesKey, key.opens]
  have plain : ∀ c ∈ key.name, isQuote c = false ∧ c ≠ '\\' := by
    intro c inside
    have known := all c inside
    constructor
    · cases quote : isQuote c
      · rfl
      · rcases isQuote_iff.1 quote with rfl | rfl <;> exact absurd known (by decide)
    · rintro rfl
      exact absurd known (by decide)
  rw [AliasKey.text]
  cases same : key.quote with
  | some quote => exact .literal (key.quotes quote (by simp [same])) plain
  | none =>
    have bare : ∀ c ∈ key.name, c ≠ '/' ∧ isQuote c = false := by
      intro c inside
      refine ⟨?_, (plain c inside).1⟩
      rintro rfl
      exact absurd (key.bare same '/' inside) (by decide)
    simpa using Keeps.of_forall bare

theorem Keeps.word {t : Text} (plain : (t.all fun c => c != '/' && !isQuote c) = true) : Keeps t := by
  refine .of_forall fun c inside => ?_
  simpa using List.all_eq_true.1 plain c inside

section
variable {G : Type} {write left : G → Text} (gaps : ∀ gap, Leaves (write gap) (left gap))
include gaps

theorem Leaves.sign (gap : G) {c : CodePoint} (plain : c ≠ '/' ∧ isQuote c = false) {t more : Text}
    (later : Leaves t more) : Leaves (write gap ++ c :: t) (left gap ++ c :: more) :=
  (gaps gap).append (later.cons plain.1 plain.2)

theorem Leaves.front (form : Form G) : Leaves (form.front write) (form.front left) := by
  cases form with
  | plain => exact Keeps.nil.leaves
  | call joined inside before after behind =>
    have function : Keeps (functionName joined) := by
      cases joined <;> exact .word (by decide)
    have directory : Keeps "__dirname" := .word (by decide)
    have arguments := (gaps inside).append (directory.leaves.append
      (Leaves.sign gaps before (c := ',') (by decide) (gaps after)))
    exact function.leaves.append (arguments.cons (c := '(') (by decide) (by decide))

theorem Leaves.back (form : Form G) : Leaves (form.back write) (form.back left) := by
  cases form with
  | plain => exact Keeps.nil.leaves
  | call _ _ _ _ behind => exact Leaves.sign gaps behind (by decide) Keeps.nil.leaves

theorem Leaves.pair (pair : AliasPair G) : Leaves (pair.text write) (pair.text left) := by
  have target : Keeps pair.target.text :=
    .literal pair.target.quotes fun c inside =>
      ⟨(pair.target.plain c inside).1, (pair.target.plain c inside).2.1⟩
  have value := (Leaves.front gaps pair.form).append target.leaves
  exact (Keeps.aliasKey pair.key).leaves.append
    (Leaves.sign gaps pair.before (c := ':') (by decide) ((gaps pair.after).append value))

theorem Leaves.pairs (pairs : AliasPairs G) : Leaves (pairs.text write) (pairs.text left) := by
  induction pairs with
  | none gap => exact gaps gap
  | last before pair behind =>
    exact (gaps before).append ((Leaves.pair gaps pair).append
      ((Leaves.back gaps pair.form).append (gaps behind)))
  | more before pair behind rest ih =>
    exact (gaps before).append ((Leaves.pair gaps pair).append
      ((Leaves.back gaps pair.form).append (Leaves.sign gaps behind (by decide) ih)))

theorem Leaves.label {word : Text} (kept : Keeps word) (label : Label G) :
    Leaves (label.text write word) (label.text left word) :=
  kept.leaves.append (Leaves.sign gaps label.before (by decide) (gaps label.after))

theorem Leaves.block (block : AliasBlock G) : Leaves (block.text write) (block.text left) := by
  have closing : Keeps ['}'] := .singleton (by decide) (by decide)
  have inside := (Leaves.pairs gaps block.pairs).append closing.leaves
  exact (Leaves.label gaps (.word (by decide)) block.label).append
    (inside.cons (by decide) (by decide))

theorem Leaves.exports (x : Exports G) : Leaves (x.text write) (x.text left) := by
  have opening : Leaves (x.opening write) (x.opening left) := by
    have exported : Keeps "exports" := .word (by decide)
    have value := Leaves.sign gaps x.equals (c := '=') (by decide)
      (Leaves.sign gaps x.brace (c := '{') (by decide) (gaps x.inside))
    exact (gaps x.start).append ((Keeps.word (by decide)).leaves.append
      (Leaves.sign gaps x.point (by decide) ((gaps x.word).append (exported.leaves.append value))))
  have ending : Leaves (x.ending write) (x.ending left) :=
    Leaves.sign gaps x.close (by decide) (Leaves.sign gaps x.stop (by decide) (gaps x.last))
  have block := Leaves.block gaps x.block
  rw [Exports.text, Exports.text]
  cases x.nesting with
  | none =>
    exact opening.append (Keeps.nil.leaves.append (block.append (Keeps.nil.leaves.append ending)))
  | some nesting =>
    have front : Leaves (nesting.front write) (nesting.front left) :=
      (Leaves.label gaps (.word (by decide)) nesting.label).append
        ((gaps nesting.inside).cons (by decide) (by decide))
    have back : Leaves (nesting.back write) (nesting.back left) :=
      Leaves.sign gaps nesting.behind (by decide) Keeps.nil.leaves
    exact opening.append (front.append (block.append (back.append ending)))

end

/-- Of a script file the exports with the remaining blanks are left. -/
theorem ExportsFile.cleaned (x : ExportsFile) :
    withoutComments x.text = x.exports.text Aside.allBlanks := by
  rw [withoutComments, text, Leaves.exports Aside.leaves, withoutCommentsFrom_last x.single,
    List.append_nil]

end ModuleAtlas.Configuration
