import ModuleAtlas.Proofs.Text.Occurrence
import ModuleAtlas.Source.Import
/-!
Import statements as they are written: with white space of any kind and length between their tokens,
and with some wherever two words would run together without it. Each is recognised as a whole, up to
the quote behind its specifier, whatever follows it (`importStatement?_text`).
-/
namespace ModuleAtlas.Source
open Text

/-! ## What is written -/

/-- White space between tokens, perhaps none. -/
structure Gap where
  text : Text
  blank : ∀ c ∈ text, isBlank c = true

/-- White space between words. -/
structure Space extends Gap where
  some : text ≠ []

/-- A name: characters of identifiers, at least one. -/
structure Name where
  text : Text
  some : text ≠ []
  proper : ∀ c ∈ text, isIdentifier c = true

/-- A list of names in braces or a namespace, with the white space behind it. -/
inductive Group
  | braces (inside : Text) (unclosed : .scalar '}' ∉ inside) (behind : Gap)
  | namespaced (before : Gap) (between : Space) (name : Name) (behind : Space)

/-- What is written for a group. -/
def Group.text : Group → Text
  | braces inside _ behind => .scalar '{' :: (inside ++ .scalar '}' :: behind.text)
  | namespaced before between name behind =>
    .scalar '*' :: (before.text ++ ("as" ++ (between.text ++ (name.text ++ behind.text))))

/-- A binding, with the white space behind it: a name, a group, or a name and a group with a comma
between them. The word `type` is no name at the beginning of a binding. -/
inductive Binding
  | name (name : Name) (free : name.text ≠ "type") (behind : Space)
  | group (group : Group)
  | both (name : Name) (free : name.text ≠ "type") (before after : Gap) (group : Group)

/-- What is written for a binding. -/
def Binding.text : Binding → Text
  | .name word _ behind => word.text ++ behind.text
  | .group part => part.text
  | .both word _ before after part =>
    word.text ++ (before.text ++ .scalar ',' :: (after.text ++ part.text))

/-- Where a binding comes from: the word `from` and the specifier in quotes. -/
structure Origin where
  gap : Gap
  quote : CodePoint
  specifier : Text
  quotes : isQuote quote = true
  some : specifier ≠ []
  plain : ∀ c ∈ specifier, isQuote c = false

/-- What is written for an origin. -/
def Origin.text (origin : Origin) : Text :=
  "from" ++ (origin.gap.text ++ origin.quote :: (origin.specifier ++ [origin.quote]))

/-- An import statement. The word `type` may stand before the binding. -/
structure Statement where
  space : Space
  typed : Option Space
  binding : Binding
  origin : Origin

namespace Statement

/-- What is written for the word `type`, if it is there. -/
def typeText : Option Space → Text
  | none => []
  | some space => "type" ++ space.text

/-- What is written behind the word `import`. -/
def behind (statement : Statement) : Text :=
  statement.space.text ++ (typeText statement.typed ++
    (statement.binding.text ++ statement.origin.text))

/-- What is written for a statement. -/
def text (statement : Statement) : Text := "import" ++ statement.behind

/-- The specifier of a statement. -/
def specifier (statement : Statement) : Text := statement.origin.specifier

end Statement

/-! ## Kinds of characters -/

theorem isBlank_of_isIdentifier {c : CodePoint} (proper : isIdentifier c = true) :
    isBlank c = false := by
  cases blank : isBlank c
  · rfl
  · rw [isIdentifier_of_isBlank blank] at proper
    cases proper

/-- A name opens with a character that is no sign. -/
theorem Name.opens (name : Name) : ∃ c t, name.text = c :: t ∧ isIdentifier c = true := by
  obtain ⟨c, t, same⟩ := List.exists_cons_of_ne_nil name.some
  exact ⟨c, t, same, name.proper c (by simp [same])⟩

/-- White space opens with a character of no name. -/
theorem Space.opens (space : Space) : ∃ c t, space.text = c :: t ∧ isIdentifier c = false := by
  obtain ⟨c, t, same⟩ := List.exists_cons_of_ne_nil space.some
  exact ⟨c, t, same, isIdentifier_of_isBlank (space.blank c (by simp [same]))⟩

/-- What follows white space and a character of no name opens with a character of no name. -/
theorem Gap.opens (gap : Gap) {c : CodePoint} (other : isIdentifier c = false) (rest : Text) :
    ∃ d t, gap.text ++ c :: rest = d :: t ∧ isIdentifier d = false := by
  cases same : gap.text with
  | nil => exact ⟨c, rest, rfl, other⟩
  | cons d t => exact ⟨d, _, rfl, isIdentifier_of_isBlank (gap.blank d (by simp [same]))⟩

/-! ## What is recognised -/

section
variable (origin : Origin) (rest : Text)

theorem source?_origin (gap : Gap) :
    source? (gap.text ++ (origin.text ++ rest)) = some (origin.specifier, rest) := by
  have written : origin.text ++ rest = "from" ++ (origin.gap.text ++
      origin.quote :: (origin.specifier ++ origin.quote :: rest)) :=
    (List.append_assoc _ _ _).trans (congrArg _ (by simp))
  have word : skipBlank (gap.text ++ (origin.text ++ rest)) = origin.text ++ rest :=
    skipBlank_append gap.blank (by decide) _
  rw [source?, word, written, dropHead?_eq_some_iff.2 rfl, Option.bind_some,
    skipBlank_append origin.gap.blank (isBlank_of_isQuote origin.quotes)]
  exact fullLiteral?_append origin.quotes origin.quotes origin.some origin.plain rest

/-- The end of a name is where the white space behind it begins. -/
theorem nameAndSource?_origin (name : Name) (behind : Space) :
    nameAndSource? (name.text ++ (behind.text ++ (origin.text ++ rest))) =
      some (origin.specifier, rest) := by
  obtain ⟨b, t, opens, other⟩ := behind.opens
  have found := source?_origin origin rest behind.toGap
  rw [opens, List.cons_append] at found ⊢
  rw [nameAndSource?, takeWhile_append_cons name.proper other, dropWhile_append_cons name.proper other]
  simp only [found, List.isEmpty_iff, name.some, if_false]

theorem bracesAndSource?_origin {inside : Text} (unclosed : .scalar '}' ∉ inside) (behind : Gap) :
    bracesAndSource? (.scalar '{' :: (inside ++ .scalar '}' :: (behind.text ++ (origin.text ++ rest)))) =
      some (origin.specifier, rest) := by
  rw [bracesAndSource?, after?, cutAt?_singleton unclosed, Option.map_some, Option.bind_some,
    source?_origin]

theorem namespaceAndSource?_origin (before : Gap) (between : Space) (name : Name) (behind : Space) :
    namespaceAndSource? (.scalar '*' :: (before.text ++ ("as" ++ (between.text ++
      (name.text ++ (behind.text ++ (origin.text ++ rest))))))) = some (origin.specifier, rest) := by
  obtain ⟨c, t, opens, proper⟩ := name.opens
  have word : ∀ tail : Text, skipBlank (before.text ++ ("as" ++ tail)) = "as" ++ tail :=
    fun _ => skipBlank_append before.blank (by decide) _
  have named : skipBlank? (between.text ++ (name.text ++ (behind.text ++ (origin.text ++ rest)))) =
      some (name.text ++ (behind.text ++ (origin.text ++ rest))) := by
    rw [opens, List.cons_append]
    exact skipBlank?_append between.blank between.some (isBlank_of_isIdentifier proper) _
  rw [namespaceAndSource?, word, dropHead?_eq_some_iff.2 rfl, Option.bind_some, named,
    Option.bind_some, nameAndSource?_origin]

theorem bindingAndSource?_group (group : Group) :
    bindingAndSource? (group.text ++ (origin.text ++ rest)) = some (origin.specifier, rest) := by
  cases group with
  | braces inside unclosed behind =>
    rw [Group.text, List.cons_append, List.append_assoc, List.cons_append]
    exact bracesAndSource?_origin origin rest unclosed behind
  | namespaced before between name behind =>
    simp only [Group.text, List.cons_append, List.append_assoc]
    exact namespaceAndSource?_origin origin rest before between name behind

/-- A binding that opens with a name goes on behind it. -/
theorem bindingAndSource?_name (name : Name) {c : CodePoint} (other : isIdentifier c = false)
    (after : Text) :
    bindingAndSource? (name.text ++ c :: after) =
      match skipBlank (c :: after) with
      | ',' :: t =>
        match skipBlank t with
        | '{' :: t => bracesAndSource? (.scalar '{' :: t)
        | '*' :: t => namespaceAndSource? (.scalar '*' :: t)
        | _ => none
      | _ => nameAndSource? (name.text ++ c :: after) := by
  obtain ⟨d, t, opens, proper⟩ := name.opens
  have word := takeWhile_append_cons name.proper other after
  have behind := dropWhile_append_cons name.proper other after
  have brace : isIdentifier '{' = false := by decide
  have star : isIdentifier '*' = false := by decide
  rw [bindingAndSource?.eq_def, word, behind, if_neg (by simpa using name.some)]
  split
  · rename_i same
    rw [opens] at same
    cases same
    rw [brace] at proper
    cases proper
  · rename_i same
    rw [opens] at same
    cases same
    rw [star] at proper
    cases proper
  · rfl

theorem bindingAndSource?_origin (binding : Binding) :
    bindingAndSource? (binding.text ++ (origin.text ++ rest)) = some (origin.specifier, rest) := by
  cases binding with
  | group part => exact bindingAndSource?_group origin rest part
  | name word free behind =>
    have found := nameAndSource?_origin origin rest word behind
    obtain ⟨c, t, opens, other⟩ := behind.opens
    have next : skipBlank (behind.text ++ (origin.text ++ rest)) = origin.text ++ rest :=
      skipBlank_append behind.blank (by decide) _
    rw [Binding.text, List.append_assoc]
    rw [opens, List.cons_append] at found next ⊢
    rw [bindingAndSource?_name word other, next, found]
    rfl
  | both word free before after part =>
    have comma : isIdentifier ',' = false := by decide
    obtain ⟨c, t, opens, other⟩ := before.opens comma
        (after.text ++ (part.text ++ (origin.text ++ rest)))
    have next : skipBlank
        (before.text ++ .scalar ',' :: (after.text ++ (part.text ++ (origin.text ++ rest)))) =
        .scalar ',' :: (after.text ++ (part.text ++ (origin.text ++ rest))) :=
      skipBlank_append before.blank (by decide) _
    have found := bindingAndSource?_group origin rest part
    simp only [Binding.text, List.append_assoc, List.cons_append]
    rw [opens] at next ⊢
    rw [bindingAndSource?_name word other, next]
    cases part with
    | braces inside unclosed behind =>
      rw [Group.text, List.cons_append] at found ⊢
      simp only [skipBlank_append after.blank (show isBlank '{' = false by decide)]
      exact found
    | namespaced before between name behind =>
      rw [Group.text, List.cons_append] at found ⊢
      simp only [skipBlank_append after.blank (show isBlank '*' = false by decide)]
      exact found

/-! ## The whole statement -/

/-- A name is not taken for the word `type` with a binding behind it, though it may begin with that
word: white space follows the word, and no name has any. -/
theorem type?_name (word : Name) (free : word.text ≠ "type") {c : CodePoint}
    (other : isIdentifier c = false) (after : Text) :
    (dropHead? "type" (word.text ++ c :: after)).bind skipBlank? = none := by
  cases read : dropHead? "type" (word.text ++ c :: after) with
  | none => rfl
  | some left =>
    rcases List.append_eq_append_iff.1 (dropHead?_eq_some_iff.1 read) with
      ⟨more, same, behind⟩ | ⟨more, longer, same⟩
    · cases more with
      | nil => exact absurd (by simpa using same.symm) free
      | cons d more =>
        obtain ⟨rfl, -⟩ : c = d ∧ _ := by simpa using behind
        have proper : ("type" : Text).all isIdentifier = true := by decide
        rw [List.all_eq_true.1 proper c (by rw [same]; simp)] at other
        cases other
    · cases more with
      | nil => exact absurd (by simpa using longer) free
      | cons d more =>
        have visible : isBlank d = false :=
          isBlank_of_isIdentifier (word.proper d (by simp [longer]))
        simp [same, skipBlank?, visible]

theorem type?_group (group : Group) :
    (dropHead? "type" (group.text ++ rest)).bind skipBlank? = none := by
  cases group <;> rfl

theorem type?_binding (binding : Binding) :
    (dropHead? "type" (binding.text ++ (origin.text ++ rest))).bind skipBlank? = none := by
  cases binding with
  | group part => exact type?_group _ part
  | name word free behind =>
    obtain ⟨c, t, opens, other⟩ := behind.opens
    rw [Binding.text, opens, List.append_assoc, List.cons_append]
    exact type?_name word free other _
  | both word free before after part =>
    have comma : isIdentifier ',' = false := by decide
    obtain ⟨c, t, opens, other⟩ :=
      before.opens comma (after.text ++ (part.text ++ (origin.text ++ rest)))
    simp only [Binding.text, List.append_assoc, List.cons_append]
    rw [opens]
    exact type?_name word free other _

/-- A binding opens with something visible. -/
theorem Binding.opens (binding : Binding) : ∃ c t, binding.text = c :: t ∧ isBlank c = false := by
  cases binding with
  | group part => cases part <;> exact ⟨_, _, rfl, by decide⟩
  | name word free behind =>
    obtain ⟨c, t, opens, proper⟩ := word.opens
    exact ⟨c, _, by rw [Binding.text, opens, List.cons_append], isBlank_of_isIdentifier proper⟩
  | both word free before after part =>
    obtain ⟨c, t, opens, proper⟩ := word.opens
    exact ⟨c, _, by rw [Binding.text, opens, List.cons_append], isBlank_of_isIdentifier proper⟩

/-- A statement is recognised as a whole, whatever follows it. -/
theorem importStatement?_text (statement : Statement) :
    importStatement? (statement.text ++ rest) = some (statement.specifier, rest) := by
  obtain ⟨space, typed, binding, origin⟩ := statement
  have found := bindingAndSource?_origin origin rest binding
  have bound : ∀ space : Space, skipBlank? (space.text ++ (binding.text ++ (origin.text ++ rest))) =
      some (binding.text ++ (origin.text ++ rest)) := by
    intro space
    obtain ⟨c, t, opens, visible⟩ := binding.opens
    rw [opens]
    exact skipBlank?_append space.blank space.some visible _
  have word : dropHead? "import" (Statement.text ⟨space, typed, binding, origin⟩ ++ rest) =
      some (Statement.behind ⟨space, typed, binding, origin⟩ ++ rest) :=
    dropHead?_eq_some_iff.2 (List.append_assoc _ _ _)
  rw [importStatement?, word, Option.bind_some, Statement.behind, Statement.specifier]
  cases typed with
  | none =>
    simp only [Statement.typeText, List.nil_append, List.append_assoc, bound, Option.bind_some,
      type?_binding, Option.bind_none, found]
  | some further =>
    have typed : ∀ tail : Text, skipBlank? (space.text ++ ("type" ++ tail)) = some ("type" ++ tail) :=
      fun _ => skipBlank?_append space.blank space.some (by decide) _
    have read : ∀ tail : Text, dropHead? "type" ("type" ++ tail) = some tail :=
      fun _ => dropHead?_eq_some_iff.2 rfl
    simp only [Statement.typeText, List.append_assoc, typed, read, bound, Option.bind_some, found]

end
end ModuleAtlas.Source
