import ModuleAtlas.Proofs.Source.Declaration
import ModuleAtlas.Source.Role
/-!
Source text that consists of declarations with other code between them. Each declaration is complete up
to its opening sign or the word `extends`, and the other code stands on lines of its own and has no
keyword of a declaration. Of such a text exactly the declarations of components are counted, each once
(`components_counted`), although a keyword may stand in a name as well, behind a dollar sign.
-/
namespace ModuleAtlas.Source
open Text

/-! ## What is written -/

/-- What ends a declaration behind its name: an opening sign, or the word `extends`. -/
inductive Closing
  | sign (gap : Gap) (c : CodePoint) (listed : c ∈ (['(', '{', '=', '<', ':'] : Text))
  | extending (space : Space)

/-- What is written for it. -/
def Closing.text : Closing → Text
  | sign gap c _ => gap.text ++ [c]
  | extending space => space.text ++ "extends"

/-- A declaration of something with a name. -/
structure Declaration where
  keyword : Text
  known : keyword ∈ (["function", "const", "let", "class"] : List Text)
  space : Space
  name : Name
  closing : Closing

/-- What is written for a declaration. -/
def Declaration.text (declaration : Declaration) : Text :=
  declaration.keyword ++ (declaration.space.text ++
    (declaration.name.text ++ declaration.closing.text))

/-- Code between declarations: lines without keywords of declarations. -/
structure Interlude where
  text : Text
  opens : text.head? = some (.scalar '\n')
  closes : text.getLast? = some (.scalar '\n')
  free : ∀ keyword ∈ (["function", "const", "let", "class"] : List Text), ¬ keyword <:+: text

/-- Source text in which declarations and other code alternate. -/
structure Sheet where
  lead : Option Interlude
  body : List (Declaration × Interlude)
  last : Option Declaration

namespace Sheet

/-- What is written for declarations, each with the code behind it. -/
def bodyText (body : List (Declaration × Interlude)) : Text :=
  body.flatMap fun part => part.1.text ++ part.2.text

/-- What is written for the whole. -/
def text (sheet : Sheet) : Text :=
  (sheet.lead.map Interlude.text).getD [] ++
    (bodyText sheet.body ++ (sheet.last.map Declaration.text).getD [])

/-- The declarations in their order. -/
def declarations (sheet : Sheet) : List Declaration :=
  sheet.body.map Prod.fst ++ sheet.last.toList

end Sheet

/-- The name is that of a component: it has a capital initial and is no constant, that is, not in
capitals only with an underscore or at least three characters. -/
def IsComponentName (name : Text) : Prop :=
  (∃ c ∈ name.head?, 'A' ≤ c ∧ c ≤ 'Z') ∧
    ¬ (isAllUpper name = true ∧ (.scalar '_' ∈ name ∨ 3 ≤ name.length))

theorem isComponentName_iff {name : Text} :
    IsComponentName name ↔ IsCapitalized name ∧ isConstantName name = false := by
  simp [IsComponentName, IsCapitalized, isCapital, isConstantName]

instance (name : Text) : Decidable (IsComponentName name) :=
  decidable_of_iff _ isComponentName_iff.symm

/-! ## What is recognised -/

theorem Closing.isCut (closing : Closing) : IsCut closing.text := by
  cases closing with
  | sign gap c listed =>
    have other : ∀ c ∈ (['(', '{', '=', '<', ':'] : Text), (!isIdentifier c) = true :=
      List.all_eq_true.1 (by decide)
    exact gap.isCut.append (isCut_cons.2 (by simpa using other c listed))
  | extending space => exact space.isCut_append "extends"

/-- What ends a declaration is recognised as an opening, whatever follows it. -/
theorem Closing.opening (closing : Closing) {rest : Text} (cut : IsCut rest) :
    componentOpening? (skipBlank (closing.text ++ rest)) = some rest := by
  cases closing with
  | sign gap c listed =>
    have each : ∀ c ∈ (['(', '{', '=', '<', ':'] : Text), (!isBlank c) = true :=
      List.all_eq_true.1 (by decide)
    have visible : isBlank c = false := by simpa using each c listed
    rw [text, List.append_assoc, List.singleton_append, skipBlank_append gap.blank visible,
      componentOpening?, if_pos (List.contains_iff_mem.2 listed)]
  | extending space =>
    have blank : skipBlank (space.text ++ (("extends" : Text) ++ rest)) = "extends" ++ rest :=
      skipBlank_append space.blank (by decide) _
    have alone : componentOpening? "extends" = some [] := by decide
    rw [text, List.append_assoc, blank, componentOpening?_append alone cut, List.nil_append]

theorem Closing.barren (closing : Closing) (rest : Text) :
    Barren (atBoundary componentDeclaration?) rest closing.text := by
  cases closing with
  | sign gap c listed =>
    have single : ∀ d ∈ [c], d ∉ initials := by simpa using not_mem_initials_of_sign listed
    exact barren_append.2 ⟨gap.barren _, barren_of_initials single rest⟩
  | extending space =>
    exact barren_append.2
      ⟨space.barren _, barren_of_initials (fun _ => not_mem_initials_of_extends) rest⟩

namespace Declaration
variable (declaration : Declaration) {rest : Text}

/-- A declaration with a capital initial is recognised as a whole. -/
theorem recognised (capitalized : IsCapitalized declaration.name.text) (cut : IsCut rest) :
    componentDeclaration? (declaration.text ++ rest) = some (declaration.name.text, rest) := by
  have apart := declaration.closing.isCut.append cut
  rw [text, List.append_assoc, List.append_assoc, List.append_assoc]
  exact componentDeclaration?_iff_isComposed.2
    (.of declaration.known apart capitalized (.whole (declaration.closing.opening cut)))

/-- No declaration of a component begins in one without a capital initial. -/
theorem barren (small : ¬ IsCapitalized declaration.name.text) (cut : IsCut rest) :
    Barren (atBoundary componentDeclaration?) rest declaration.text := by
  obtain ⟨keyword, known, space, name, closing⟩ := declaration
  obtain ⟨c, word, rfl⟩ : ∃ c word, keyword = c :: word :=
    List.exists_cons_of_ne_nil fun none => by rw [none] at known; revert known; decide
  have apart := closing.isCut.append cut
  obtain ⟨-, -, -, other⟩ := exists_of_opening (closing.opening cut)
  have behind : IsCut (space.text ++ (name.text ++ closing.text) ++ rest) := by
    rw [List.append_assoc]
    exact space.isCut_append _
  refine barren_append.2 ⟨⟨atBoundary_eq_none ?_, barren_keyword known behind⟩, barren_append.2
    ⟨space.barren _, barren_append.2 ⟨name.barren apart other, closing.barren rest⟩⟩⟩
  by_contra there
  have opens := Opens.of_declaration there
  rw [opens_append_iff (proper_of_component _ known) behind, List.append_assoc, List.append_assoc,
    space.skipBlank_name, isCapitalized_append] at opens
  exact small opens.2

/-- Of a declaration its name is found, if it has a capital initial. -/
theorem occurrencesFrom_text (cut : IsCut rest) :
    occurrencesFrom (atBoundary componentDeclaration?) true 0 (declaration.text ++ rest) =
      (if IsCapitalized declaration.name.text then [declaration.name.text] else []) ++
        occurrencesFrom (atBoundary componentDeclaration?) (edge true declaration.text) 0 rest := by
  by_cases capitalized : IsCapitalized declaration.name.text
  · rw [if_pos capitalized]
    have some : declaration.text ≠ [] := by
      obtain ⟨c, t, opens, -⟩ := declaration.name.opens
      simp [text, opens]
    exact occurrencesFrom_found some (declaration.recognised capitalized cut)
  · rw [if_neg capitalized]
    exact occurrencesFrom_barren (declaration.barren capitalized cut) true

end Declaration

/-- No declaration begins in code between declarations, whatever follows it. -/
theorem Interlude.barren (interlude : Interlude) (rest : Text) :
    Barren (atBoundary componentDeclaration?) rest interlude.text := by
  refine barren_of_not_opens fun u some ends opens => ?_
  have line : .scalar '\n' ∈ u := by
    obtain ⟨front, whole⟩ := ends
    have last := interlude.closes
    rw [← whole, List.getLast?_append_of_ne_nil front some] at last
    exact List.mem_of_getLast? last
  have more : u.dropWhile isIdentifier ≠ [] := by
    intro none
    have proper := List.dropWhile_eq_nil_iff.1 none '\n' line
    revert proper
    decide
  have listed := opens.1
  rw [takeWhile_append_of_ne_nil more] at listed
  exact interlude.free _ listed ((List.takeWhile_prefix _).isInfix.trans ends.isInfix)

theorem Interlude.isCut_append (interlude : Interlude) (rest : Text) :
    IsCut (interlude.text ++ rest) := by
  obtain ⟨t, same⟩ := List.head?_eq_some_iff.1 interlude.opens
  rw [same, List.cons_append, isCut_cons]
  decide

theorem Interlude.edge_text (interlude : Interlude) (boundary : Bool) :
    edge boundary interlude.text = true := by
  obtain ⟨t, same⟩ := List.getLast?_eq_some_iff.1 interlude.closes
  rw [same, edge_append_singleton]
  decide

/-- The names of declarations that have a capital initial. -/
def capitalizedNames (declarations : List Declaration) : List Text :=
  (declarations.map (·.name.text)).filter fun name => IsCapitalized name

theorem capitalizedNames_cons (declaration : Declaration) (rest : List Declaration) :
    capitalizedNames (declaration :: rest) =
      (if IsCapitalized declaration.name.text then [declaration.name.text] else []) ++
        capitalizedNames rest := by
  by_cases capitalized : IsCapitalized declaration.name.text <;>
    simp [capitalizedNames, capitalized]

theorem capitalizedNames_append (before after : List Declaration) :
    capitalizedNames (before ++ after) = capitalizedNames before ++ capitalizedNames after := by
  simp [capitalizedNames]

namespace Sheet

/-- From declarations with code behind them their capitalized names are found, one after the other. -/
theorem occurrencesFrom_bodyText (body : List (Declaration × Interlude)) (rest : Text) :
    occurrencesFrom (atBoundary componentDeclaration?) true 0 (bodyText body ++ rest) =
      capitalizedNames (body.map Prod.fst) ++
        occurrencesFrom (atBoundary componentDeclaration?) true 0 rest := by
  induction body with
  | nil => rfl
  | cons part body ih =>
    obtain ⟨declaration, interlude⟩ := part
    have parts : bodyText ((declaration, interlude) :: body) ++ rest =
        declaration.text ++ (interlude.text ++ (bodyText body ++ rest)) := by
      simp [bodyText]
    rw [parts, declaration.occurrencesFrom_text (interlude.isCut_append _),
      occurrencesFrom_barren (interlude.barren _), interlude.edge_text, ih, List.map_cons,
      capitalizedNames_cons, List.append_assoc]

theorem occurrences_text (sheet : Sheet) :
    occurrences (atBoundary componentDeclaration?) sheet.text =
      capitalizedNames sheet.declarations := by
  have declared : occurrencesFrom (atBoundary componentDeclaration?) true 0
      (bodyText sheet.body ++ (sheet.last.map Declaration.text).getD []) =
        capitalizedNames sheet.declarations := by
    rw [occurrencesFrom_bodyText, declarations, capitalizedNames_append]
    refine congrArg (capitalizedNames (sheet.body.map Prod.fst) ++ ·) ?_
    cases sheet.last with
    | none => rfl
    | some declaration =>
      have found := declaration.occurrencesFrom_text isCut_nil
      rw [List.append_nil] at found
      exact found.trans (capitalizedNames_cons declaration []).symm
  rw [occurrences, text]
  cases sheet.lead with
  | none => exact declared
  | some interlude =>
    rw [Option.map_some, Option.getD_some, occurrencesFrom_barren (interlude.barren _),
      interlude.edge_text, declared]

end Sheet

/-- As many declarations of components are counted in a text as have the name of a component, and the
flag for several components tells of a component file whether these are more than one. -/
theorem components_counted :
    (∀ sheet : Sheet, componentCount sheet.text =
      (sheet.declarations.filter fun declaration => IsComponentName declaration.name.text).length) ∧
    ∀ content fileName path several, classify content fileName path = (.component, several) →
      (several = true ↔ 1 < componentCount content) := by
  constructor
  · intro sheet
    rw [componentCount, componentNames, sheet.occurrences_text, capitalizedNames, List.filter_filter,
      List.filter_map, List.length_map]
    refine congrArg (fun named => (sheet.declarations.filter named).length)
      (funext fun declaration => ?_)
    simp [isComponentName_iff, Bool.and_comm]
  · intro content fileName path several classified
    rw [classify] at classified
    split at classified
    · cases classified
    · split at classified
      · cases classified
        simp [hasSeveralComponents]
      · cases classified

/-- A single space, and a single line end as other code. -/
def oneSpace : Space := { text := " ", blank := List.all_eq_true.1 (by decide), some := by decide }

def lineEnd : Interlude :=
  { text := "\n", opens := rfl, closes := rfl, free := by decide +kernel }

/-- A text as a name. -/
def named (text : Text) (some : text ≠ []) (all : text.all isIdentifier = true) : Name :=
  { text, some, proper := List.all_eq_true.1 all }

/-- A declaration of a name with an equals sign behind it. -/
def assigned (keyword : Text) (known : keyword ∈ (["function", "const", "let", "class"] : List Text))
    (name : Name) : Declaration :=
  { keyword, known, space := oneSpace, name, closing := .sign oneSpace.toGap '=' (by decide) }

/-- A class with a keyword in its name, a constant, a function in small letters, and an acronym. -/
def mixed : Sheet where
  lead := some lineEnd
  body :=
    [({ keyword := "class", known := by decide, space := oneSpace
        name := named "A$function" (by decide) (by decide), closing := .extending oneSpace }, lineEnd),
      (assigned "const" (by decide) (named "API_URL" (by decide) (by decide)), lineEnd),
      (assigned "function" (by decide) (named "helper" (by decide) (by decide)), lineEnd)]
  last := some (assigned "let" (by decide) (named "UI" (by decide) (by decide)))

/-- Two of these are components. -/
theorem mixed_counted : componentCount mixed.text = 2 ∧
    classify mixed.text "App.js" "App.js" = (.component, true) ∧
      (true = true ↔ 1 < componentCount mixed.text) := by
  have classified : classify mixed.text "App.js" "App.js" = (.component, true) := by decide +kernel
  exact ⟨(components_counted.1 mixed).trans (by decide +kernel), classified,
    components_counted.2 _ _ _ _ classified⟩

end ModuleAtlas.Source
