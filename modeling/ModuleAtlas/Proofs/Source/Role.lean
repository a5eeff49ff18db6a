import ModuleAtlas.Proofs.Source.Declaration
import ModuleAtlas.Source.Role
/-!
What more lines do to the role of a file. Marks, imports and declarations that a text has stay where
lines are added before or after it, and no declaration of a component is lost. So the file stays what
it is, or gets closer to managing state (`standing_classify_le`).
-/
namespace ModuleAtlas.Source
open Text

/-- How close a classification is to state management: first come files that are neither, then those
with one component, then those with several. -/
def standing : Role × Bool → Nat
  | (.utility, _) => 0
  | (.component, false) => 1
  | (.component, true) => 2
  | (.state, _) => 3

/-- The text with more lines before and after it. -/
def amongLines (before content after : Text) : Text :=
  before ++ .scalar '\n' :: (content ++ .scalar '\n' :: after)

section
variable {before content after : Text}

theorem has_amongLines {needle : Text} (there : has content needle = true) :
    has (amongLines before content after) needle = true := by
  rw [has_iff] at there ⊢
  exact there.trans ⟨before ++ [.scalar '\n'], .scalar '\n' :: after, by simp [amongLines]⟩

theorem any_has_amongLines {marks : List Text} (there : marks.any (has content) = true) :
    marks.any (has (amongLines before content after)) = true := by
  rw [List.any_eq_true] at there ⊢
  obtain ⟨mark, listed, here⟩ := there
  exact ⟨mark, listed, has_amongLines here⟩

theorem isState_amongLines {path : Text} (state : isState content path = true) :
    isState (amongLines before content after) path = true := by
  rw [isState, Bool.or_eq_true] at state ⊢
  exact state.imp any_has_amongLines id

/-- Elements are returned if the three marks stand one behind the other anywhere. -/
theorem hasElementReturn_iff {t : Text} : hasElementReturn t = true ↔
    ∃ before between inside after : Text, t = before ++ ("return (" ++ (between ++ ("<" ++
      (inside ++ ("/>" ++ after))))) := by
  rw [hasElementReturn, Option.isSome_iff_exists]
  constructor
  · rintro ⟨after, found⟩
    obtain ⟨second, found, third⟩ := Option.bind_eq_some_iff.1 found
    obtain ⟨first, opened, tagged⟩ := Option.bind_eq_some_iff.1 found
    obtain ⟨before, rfl⟩ := exists_of_after? opened
    obtain ⟨between, rfl⟩ := exists_of_after? tagged
    obtain ⟨inside, rfl⟩ := exists_of_after? third
    exact ⟨before, between, inside, after, rfl⟩
  · rintro ⟨before, between, inside, after, rfl⟩
    obtain ⟨_, opened, more, rfl⟩ := after?_of_append "return (" before
      (between ++ ("<" ++ (inside ++ ("/>" ++ after))))
    obtain ⟨_, tagged, others, rfl⟩ := after?_of_append "<" (more ++ between)
      (inside ++ ("/>" ++ after))
    obtain ⟨rest, closed, -⟩ := after?_of_append "/>" (others ++ inside) after
    rw [List.append_assoc] at tagged closed
    exact ⟨rest, by rw [opened, Option.bind_some, tagged, Option.bind_some, closed]⟩

theorem hasElementReturn_amongLines (there : hasElementReturn content = true) :
    hasElementReturn (amongLines before content after) = true := by
  rw [hasElementReturn_iff] at there ⊢
  obtain ⟨first, between, inside, last, rfl⟩ := there
  exact ⟨before ++ .scalar '\n' :: first, between, inside, last ++ .scalar '\n' :: after,
    by simp [amongLines]⟩

/-! ## Declarations -/

theorem isCut_line (after : Text) : IsCut (.scalar '\n' :: after) := isCut_cons.2 (by decide)

/-- Among more lines there are as many good sites as without them. -/
theorem sitesFrom_amongLines (before content : Text) {pattern : Pattern Text} {good : Text → Bool}
    (outlasts : Outlasts pattern good (.scalar '\n' :: after)) :
    ((sitesFrom pattern [] true content).filter good).length ≤
      ((sitesFrom pattern [] true (amongLines before content after)).filter good).length := by
  have parts : amongLines before content after =
      (before ++ [.scalar '\n']) ++ (content ++ .scalar '\n' :: after) := by
    simp [amongLines]
  have boundary : edge true (before ++ [.scalar '\n']) = true := by
    rw [edge_append_singleton]
    decide
  have kept := sitesFrom_length_le outlasts true content
  rw [parts, sitesFrom_append, boundary, sitesFrom_append [] content]
  simp only [List.filter_append, List.length_append, List.append_nil]
  omega

theorem componentNames_eq (t : Text) : componentNames t =
    (sitesFrom (atBoundary componentDeclaration?) [] true t).filter (!isConstantName ·) := by
  rw [componentNames, occurrences, occurrencesFrom_eq_sitesFrom keepsApart_component]

theorem componentCount_amongLines :
    componentCount content ≤ componentCount (amongLines before content after) := by
  rw [componentCount, componentCount, componentNames_eq, componentNames_eq]
  exact sitesFrom_amongLines before content (outlasts_component (isCut_line after))

theorem outlasts_declaration (rest : Text) :
    Outlasts (atBoundary declaration?) (fun _ => true) rest := by
  have proper : ∀ word ∈ declarationKeywords, ∀ c ∈ word, isIdentifier c = true :=
    proper_of_all (by decide)
  intro boundary t found left read _
  cases boundary with
  | false => cases read
  | true =>
    obtain ⟨body, word, named⟩ := Option.bind_eq_some_iff.1 read
    have opening : skipBlank (body.dropWhile isIdentifier) ≠ [] := by
      intro none
      simp [none] at named
    have name : body.dropWhile isIdentifier ≠ [] := by
      intro none
      simp [none, skipBlank] at opening
    have some : body ≠ [] := by
      rintro rfl
      exact name rfl
    refine ⟨found, left ++ rest, Option.bind_eq_some_iff.2
      ⟨body ++ rest, keyword?_append proper word some rest, ?_⟩, rfl⟩
    have same : skipBlank ((body ++ rest).dropWhile isIdentifier) =
        skipBlank (body.dropWhile isIdentifier) ++ rest := by
      rw [dropWhile_append_of_ne_nil name]
      exact dropWhile_append_of_ne_nil opening rest
    obtain ⟨c, behind, sign⟩ := List.exists_cons_of_ne_nil opening
    rw [sign] at same
    simp only [sign] at named
    simp only [same, takeWhile_append_of_ne_nil name, List.cons_append]
    split at named
    · rename_i isIt
      obtain ⟨rfl, rfl⟩ := Prod.mk.inj (Option.some.inj named)
      rw [if_pos isIt]
    · cases named

theorem hasDeclaration_amongLines (there : hasDeclaration content = true) :
    hasDeclaration (amongLines before content after) = true := by
  have kept := sitesFrom_amongLines before content
    (outlasts_declaration (.scalar '\n' :: after))
  have some : ∀ sites : List Text, sites.head?.isSome = true ↔
      0 < (sites.filter fun _ => true).length := by
    intro sites
    cases sites <;> simp
  rw [hasDeclaration, first?, firstFrom?_eq_head?, some] at there ⊢
  omega

theorem hasDefinition_amongLines (there : hasDefinition content = true) :
    hasDefinition (amongLines before content after) = true := by
  rw [hasDefinition, Bool.and_eq_true, Bool.or_eq_true] at there ⊢
  exact there.imp hasDeclaration_amongLines (.imp has_amongLines has_amongLines)

theorem isComponent_amongLines {fileName : Text} (component : isComponent content fileName = true) :
    isComponent (amongLines before content after) fileName = true := by
  rw [isComponent, Bool.or_eq_true, Bool.and_eq_true, Bool.or_eq_true] at component ⊢
  exact component.imp id (.imp any_has_amongLines
    (.imp hasElementReturn_amongLines hasDefinition_amongLines))

end

theorem standing_le (found : Role × Bool) : standing found ≤ 3 := by
  obtain ⟨role, several⟩ := found
  cases role <;> cases several <;> decide

/-- More lines before or after the text of a file never move it away from state management. -/
theorem standing_classify_le (before content after fileName path : Text) :
    standing (classify content fileName path) ≤
      standing
        (classify (before ++ .scalar '\n' :: (content ++ .scalar '\n' :: after)) fileName path) := by
  change _ ≤ standing (classify (amongLines before content after) fileName path)
  by_cases wide : isState (amongLines before content after) path = true
  · have most : standing (classify (amongLines before content after) fileName path) = 3 := by
      simp [classify, wide, standing]
    rw [most]
    exact standing_le _
  have narrow : ¬ isState content path = true := fun state => wide (isState_amongLines state)
  by_cases component : isComponent content fileName = true
  · have still := @isComponent_amongLines before content after fileName component
    have count := @componentCount_amongLines before content after
    rw [classify, if_neg narrow, if_pos component, classify, if_neg wide, if_pos still]
    cases several : hasSeveralComponents content with
    | false => cases hasSeveralComponents (amongLines before content after) <;> decide
    | true =>
      have more : hasSeveralComponents (amongLines before content after) = true := by
        simp only [hasSeveralComponents, decide_eq_true_eq] at several ⊢
        omega
      rw [more]
  · have least : standing (classify content fileName path) = 0 := by
      simp [classify, narrow, component, standing]
    omega

end ModuleAtlas.Source
