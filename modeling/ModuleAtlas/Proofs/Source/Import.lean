import ModuleAtlas.Proofs.Source.Statement
/-!
Source text in which import statements stand between other code. The other code is any text without
the word `import`, and imports that are no import statements: those without a binding, and calls.
From such a text exactly the specifiers of its statements are read (`specifiers_text`). The word
`import` begins a statement only where a binding follows it, so the argument is about where the word
can stand, and about what stands behind it there.
-/
namespace ModuleAtlas.Source
open Text

/-! ## Where the word stands -/

/-- The text does not go on with the rest of a word `import` begun before it. -/
def Detached (rest : Text) : Prop := ∀ c ∈ rest.head?, c ∉ ("mport" : Text)

theorem detached_cons {c : CodePoint} (other : isIdentifier c = false) (t : Text) :
    Detached (c :: t) := by
  intro d first inside
  obtain rfl : c = d := by simpa using first
  have proper : ("mport" : Text).all isIdentifier = true := by decide
  rw [List.all_eq_true.1 proper c inside] at other
  cases other

/-- A word that begins in a text ends there as well, when what follows is detached. -/
theorem exists_of_import {s rest after : Text} (some : s ≠ []) (detached : Detached rest)
    (same : s ++ rest = "import" ++ after) : ∃ more, s = "import" ++ more ∧ after = more ++ rest := by
  rcases List.append_eq_append_iff.1 same with ⟨left, word, follows⟩ | ⟨more, longer, follows⟩
  · cases left with
    | nil => exact ⟨[], by simpa using word.symm, by simpa using follows.symm⟩
    | cons c left =>
      obtain ⟨d, s, rfl⟩ := List.exists_cons_of_ne_nil some
      have tail : ("mport" : Text) = s ++ c :: left := (List.cons.inj word).2
      exact absurd (by rw [tail]; simp) (detached c (by simp [follows]))
  · exact ⟨more, longer, follows⟩

/-- With this behind it, the word begins no import statement. -/
def Unbound (after : Text) : Prop := importStatement? ("import" ++ after) = none

theorem unbound_of_visible {c : CodePoint} (visible : isBlank c = false) (t : Text) :
    Unbound (c :: t) := by
  rw [Unbound, importStatement?, dropHead?_eq_some_iff.2 rfl, Option.bind_some, skipBlank?, visible]
  rfl

/-- A sign that no binding opens with. -/
structure IsSign (c : CodePoint) : Prop where
  visible : isBlank c = false
  other : isIdentifier c = false
  brace : c ≠ '{'
  star : c ≠ '*'

theorem bindingAndSource?_sign {c : CodePoint} (sign : IsSign c) (t : Text) :
    bindingAndSource? (c :: t) = none := by
  rw [bindingAndSource?.eq_def]
  split
  · rename_i same
    exact absurd (List.cons.inj same).1 sign.brace
  · rename_i same
    exact absurd (List.cons.inj same).1 sign.star
  · simp [sign.other]

theorem unbound_of_sign (gap : Gap) {c : CodePoint} (sign : IsSign c) (t : Text) :
    Unbound (gap.text ++ c :: t) := by
  cases same : gap.text with
  | nil => exact unbound_of_visible sign.visible t
  | cons b more =>
    have read : skipBlank? (gap.text ++ c :: t) = some (c :: t) :=
      skipBlank?_append gap.blank (by simp [same]) sign.visible t
    have untyped : (dropHead? "type" (c :: t)).bind skipBlank? = none := by
      have letter : isIdentifier 't' = true := by decide
      have apart : 't' ≠ c := fun same => by
        rw [same, sign.other] at letter
        cases letter
      simp [dropHead?, apart]
    rw [← same, Unbound, importStatement?, dropHead?_eq_some_iff.2 rfl, Option.bind_some, read,
      Option.bind_some, untyped, Option.bind_none, bindingAndSource?_sign sign]

theorem isSign_of_isQuote {c : CodePoint} (quotes : isQuote c = true) : IsSign c := by
  rcases isQuote_iff.1 quotes with rfl | rfl <;> exact ⟨by decide, by decide, by decide, by decide⟩

/-- No statement begins in a text behind which the word cannot go on, if none does at the words that
the text itself has. -/
theorem barren_of_unbound {t rest : Text} (detached : Detached rest)
    (unbound : ∀ before more, t = before ++ ("import" ++ more) → Unbound (more ++ rest)) :
    Barren (atBoundary importStatement?) rest t := by
  induction t with
  | nil => trivial
  | cons c t ih =>
    refine ⟨fun boundary => atBoundary_eq_none ?_ boundary, ih fun before more same =>
      unbound (c :: before) more (by rw [same, List.cons_append])⟩
    cases read : dropHead? "import" (c :: t ++ rest) with
    | none => rw [importStatement?, read, Option.bind_none]
    | some after =>
      have word := dropHead?_eq_some_iff.1 read
      obtain ⟨more, whole, behind⟩ := exists_of_import (List.cons_ne_nil c t) detached word
      rw [word, behind]
      exact unbound [] more whole

/-- No statement begins in a text without the first letter of the word, whatever follows. -/
theorem barren_of_not_mem {t : Text} (free : .scalar 'i' ∉ t) (rest : Text) :
    Barren (atBoundary importStatement?) rest t := by
  induction t with
  | nil => trivial
  | cons c t ih =>
    obtain ⟨apart, later⟩ := not_or.1 (mt List.mem_cons.2 free)
    refine ⟨fun boundary => atBoundary_eq_none ?_ boundary, ih later⟩
    cases read : dropHead? "import" (c :: t ++ rest) with
    | none => rw [importStatement?, read, Option.bind_none]
    | some after =>
      have first : c = 'i' := (List.cons.inj (dropHead?_eq_some_iff.1 read)).1
      exact absurd first.symm apart

/-! ## Other code -/

/-- The text does not have the word. -/
def IsPlain (t : Text) : Prop := ¬ ("import" : Text) <:+: t

instance (t : Text) : Decidable (IsPlain t) :=
  inferInstanceAs (Decidable (¬ ("import" : Text) <:+: t))

/-- The text has nothing blank. -/
def IsSolid (t : Text) : Prop := ∀ c ∈ t, isBlank c = false

instance (t : Text) : Decidable (IsSolid t) := inferInstanceAs (Decidable (∀ c ∈ t, _))

/-- An import that is no import statement: one without a binding, or a call. The specifier of either
has nothing blank; in a call it may have more before it in the parentheses, such as a comment, and is
followed by the closing parenthesis or a comma. -/
inductive Special
  | bare (gap : Gap) (quote : CodePoint) (quotes : isQuote quote = true)
    (specifier : Text) (solid : IsSolid specifier)
  | call (gap : Gap) (before : Text) (plain : IsPlain before)
    (specifier : Text) (solid : IsSolid specifier)
    (behind : Gap) (closing : CodePoint) (closes : closing = ')' ∨ closing = ',')

namespace Special

/-- What is written behind the word `import`. -/
def behind : Special → Text
  | bare gap quote _ specifier _ => gap.text ++ quote :: (specifier ++ [quote])
  | call gap before _ specifier _ behind closing _ =>
    gap.text ++ .scalar '(' :: (before ++ specifier ++ (behind.text ++ [closing]))

/-- What is written for such an import. -/
def text (other : Special) : Text := "import" ++ other.behind

end Special

theorem barren_word (gap : Gap) {c : CodePoint} (sign : IsSign c) (t : Text) :
    Barren (atBoundary importStatement?) (gap.text ++ c :: t) "import" := by
  obtain ⟨d, u, opens, other⟩ := gap.opens sign.other t
  refine barren_of_unbound (by rw [opens]; exact detached_cons other u) fun before more same => ?_
  obtain rfl : more = [] := by
    have lengths := congrArg List.length same
    rw [List.length_append, List.length_append] at lengths
    exact List.eq_nil_of_length_eq_zero (by omega)
  exact unbound_of_sign gap sign t

/-- Where the word stands in a specifier, nothing blank follows but at the end of it, and there no
binding can follow. -/
theorem barren_specifier {before specifier : Text} (plain : IsPlain before) (solid : IsSolid specifier)
    (gap : Gap) {c : CodePoint} (sign : IsSign c) (rest : Text) :
    Barren (atBoundary importStatement?) (gap.text ++ c :: rest) (before ++ specifier) := by
  obtain ⟨d, u, opens, other⟩ := gap.opens sign.other rest
  refine barren_of_unbound (by rw [opens]; exact detached_cons other u) fun front more same => ?_
  have within : IsSolid more := by
    rcases List.append_eq_append_iff.1 same with ⟨left, whole, tail⟩ | ⟨left, whole, tail⟩
    · exact fun c inside => solid c (by simp [tail, inside])
    · rcases List.append_eq_append_iff.1 tail with ⟨last, longer, rest⟩ | ⟨last, longer, rest⟩
      · exact absurd ⟨front, last, by rw [whole, longer, List.append_assoc]⟩ plain
      · exact fun c inside => solid c (by simp [rest, inside])
  cases more with
  | nil => exact unbound_of_sign gap sign rest
  | cons e more => exact unbound_of_visible (within e (by simp)) _

theorem Gap.not_mem (gap : Gap) {c : CodePoint} (visible : isBlank c = false) : c ∉ gap.text := by
  intro inside
  rw [gap.blank c inside] at visible
  cases visible

/-- No statement begins with the word of an import that is none. -/
theorem Special.barren_word (other : Special) (rest : Text) :
    Barren (atBoundary importStatement?) (other.behind ++ rest) "import" := by
  cases other with
  | bare gap quote quotes specifier solid =>
    rw [behind, List.append_assoc]
    exact Source.barren_word gap (isSign_of_isQuote quotes) _
  | call gap before plain specifier solid trail closing closes =>
    rw [behind, List.append_assoc]
    exact Source.barren_word gap ⟨by decide, by decide, by decide, by decide⟩ _

/-- No statement begins behind the word of an import that is none. -/
theorem Special.barren_behind (other : Special) (rest : Text) :
    Barren (atBoundary importStatement?) rest other.behind := by
  have letter (gap : Gap) : .scalar 'i' ∉ gap.text := gap.not_mem (by decide)
  cases other with
  | bare gap quote quotes specifier solid =>
    have apart : 'i' ≠ quote := fun same => by cases same; cases quotes
    have parts : (Special.bare gap quote quotes specifier solid).behind =
        (gap.text ++ [quote]) ++ (([] ++ specifier) ++ [quote]) := by simp [behind]
    rw [parts]
    exact barren_append.2 ⟨barren_of_not_mem (by simp [letter gap, apart]) _, barren_append.2
      ⟨barren_specifier (by decide) solid ⟨[], by simp⟩ (isSign_of_isQuote quotes) rest,
        barren_of_not_mem (by simp [apart]) _⟩⟩
  | call gap before plain specifier solid trail closing closes =>
    have sign : IsSign closing := by
      rcases closes with rfl | rfl <;> exact ⟨by decide, by decide, by decide, by decide⟩
    have apart : 'i' ≠ closing := by rcases closes with rfl | rfl <;> decide
    have parts : (Special.call gap before plain specifier solid trail closing closes).behind =
        (gap.text ++ [.scalar '(']) ++ ((before ++ specifier) ++ (trail.text ++ [closing])) := by
      simp [behind]
    have within := barren_specifier plain solid trail sign rest
    rw [parts]
    exact barren_append.2 ⟨barren_of_not_mem (by simp [letter gap]) _, barren_append.2
      ⟨by simpa using within, barren_of_not_mem (by simp [letter trail, apart]) _⟩⟩

/-- Other code: text without the word `import`, and imports that are no import statements. -/
inductive Filler
  | plain (t : Text) (plain : IsPlain t)
  | beside (t : Text) (plain : IsPlain t) (other : Special) (rest : Filler)

/-- What is written for other code. -/
def Filler.text : Filler → Text
  | .plain t _ => t
  | .beside t _ other rest => t ++ (other.text ++ rest.text)

theorem detached_import (t : Text) : Detached ("import" ++ t) := by
  intro c first
  obtain rfl : 'i' = c := by simpa using first
  decide

theorem barren_of_isPlain {t : Text} (plain : IsPlain t) {rest : Text} (detached : Detached rest) :
    Barren (atBoundary importStatement?) rest t :=
  barren_of_unbound detached fun before more same =>
    absurd ⟨before, more, by rw [same, List.append_assoc]⟩ plain

/-- No statement begins in other code. -/
theorem Filler.barren (filler : Filler) {rest : Text} (detached : Detached rest) :
    Barren (atBoundary importStatement?) rest filler.text := by
  induction filler with
  | plain t plain => exact barren_of_isPlain plain detached
  | beside t plain other more ih =>
    have follows : Detached (other.text ++ (more.text ++ rest)) :=
      (List.append_assoc _ _ _).symm ▸ detached_import _
    refine barren_append.2 ⟨barren_of_isPlain plain ?_, barren_append.2 ⟨barren_append.2
      ⟨other.barren_word _, other.barren_behind _⟩, ih⟩⟩
    rwa [List.append_assoc]

/-! ## Statements among other code -/

/-- Source text: import statements, each with other code before it that does not end in a word
character, and other code behind the last of them. -/
inductive Code
  | last (filler : Filler)
  | next (filler : Filler) (apart : IsOpen filler.text) (statement : Statement) (rest : Code)

namespace Code

/-- What is written for source text. -/
def text : Code → Text
  | last filler => filler.text
  | next filler _ statement rest => filler.text ++ (statement.text ++ rest.text)

/-- The specifiers of the statements in source text, in order. -/
def specifiers : Code → List Text
  | last _ => []
  | next _ _ statement rest => statement.specifier :: rest.specifiers

end Code

/-- A statement ends in a quote, so there is a boundary behind it. -/
theorem Statement.edge_text (statement : Statement) (boundary : Bool) :
    edge boundary statement.text = true := by
  obtain ⟨space, typed, binding, gap, quote, specifier, quotes, some, plain⟩ := statement
  have sign : isWord quote = false := by
    rcases isQuote_iff.1 quotes with rfl | rfl <;> decide
  have last (boundary : Bool) : edge boundary (quote :: (specifier ++ [quote])) = true := by
    rw [edge, edge_append_singleton, sign]
    rfl
  change edge boundary ("import" ++ (space.text ++ (Statement.typeText typed ++ (binding.text ++
    ("from" ++ (gap.text ++ quote :: (specifier ++ [quote]))))))) = true
  simp only [edge_append, last]

theorem detached_statement (statement : Statement) (rest : Text) :
    Detached (statement.text ++ rest) :=
  (List.append_assoc _ _ _).symm ▸ detached_import _

/-- From import statements among other code, exactly their specifiers are read, each as often and in
the order in which the statements stand there. -/
theorem specifiers_text (code : Code) : specifiers code.text = code.specifiers := by
  unfold specifiers occurrences
  induction code with
  | last filler =>
    have detached : Detached [] := by simp [Detached]
    have passed := occurrencesFrom_barren (filler.barren detached) true
    rw [List.append_nil] at passed
    exact passed
  | next filler apart statement rest ih =>
    have some : statement.text ≠ [] := List.cons_ne_nil _ _
    rw [Code.text, occurrencesFrom_barren (filler.barren (detached_statement statement _)),
      edge_of_isOpen apart, occurrencesFrom_found some (importStatement?_text rest.text statement),
      statement.edge_text, ih, Code.specifiers]

/-- One blank between words. -/
def oneBlank : Space := ⟨⟨[' '], by decide⟩, by decide⟩

def noGap : Gap := ⟨[], by decide⟩

/-- Two statements with a call between them, and an import without a binding at the end. -/
def mixedImports : Code :=
  let names : Group := .braces ['b'] (by decide) oneBlank.toGap
  let first : Statement :=
    ⟨oneBlank, none, .both ⟨['a'], by decide, by decide⟩ (by decide) noGap oneBlank.toGap names,
      ⟨oneBlank.toGap, '\'', "./x", isQuote_apostrophe, by decide, by decide⟩⟩
  let second : Statement :=
    ⟨oneBlank, some oneBlank,
      .group (.namespaced oneBlank.toGap oneBlank ⟨['c'], by decide, by decide⟩ oneBlank),
      ⟨noGap, '"', "./z", isQuote_quotationMark, by decide, by decide⟩⟩
  let call : Special := .call noGap [] (by decide) "'./y'" (by decide) noGap ')' (by decide)
  let bare : Special := .bare oneBlank.toGap '\'' isQuote_apostrophe "./w" (by decide)
  .next (.plain [] (by decide)) (by decide) first
    (.next (.beside ['\n'] (by decide) call (.plain [';'] (by decide))) (by decide) second
      (.last (.beside [';'] (by decide) bare (.plain [] (by decide)))))

theorem mixedImports_specifiers :
    mixedImports.text =
      "import a, \x7bb\x7d from './x'\nimport('./y');import type * as c from\"./z\";import './w'" ∧
    specifiers mixedImports.text = [("./x" : Text), "./z"] :=
  ⟨by decide +kernel, specifiers_text mixedImports⟩

end ModuleAtlas.Source
