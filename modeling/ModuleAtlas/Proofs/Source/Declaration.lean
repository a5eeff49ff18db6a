import ModuleAtlas.Proofs.Source.Statement
import ModuleAtlas.Proofs.Text.Site
import ModuleAtlas.Source.Role
import Mathlib.Data.List.Infix
import Mathlib.Data.List.TakeWhile
/-!
Where declarations of components begin. Such a declaration opens with a keyword, and what follows the
blanks behind it is a capital letter (`Opens`). Inside a declaration this is so nowhere, not even where
a keyword stands at the end of the name, because the name is followed by an opening sign or by the word
`extends`. So declarations keep apart (`keepsApart_component`), and one that is there stays when the
text goes on behind a line end (`outlasts_component`).
-/
namespace ModuleAtlas.Source
open Text

/-! ## Identifiers -/

/-- No identifier goes on in the text. -/
def IsCut (t : Text) : Prop := ∀ c ∈ t.head?, isIdentifier c = false

theorem isCut_nil : IsCut [] := by simp [IsCut]

theorem isCut_cons {c : CodePoint} {t : Text} : IsCut (c :: t) ↔ isIdentifier c = false := by
  simp [IsCut]

theorem IsCut.append {s t : Text} (first : IsCut s) (second : IsCut t) : IsCut (s ++ t) := by
  cases s with
  | nil => exact second
  | cons c s => exact isCut_cons.2 (isCut_cons.1 first)

theorem Gap.isCut (gap : Gap) : IsCut gap.text := fun _ first =>
  isIdentifier_of_isBlank (gap.blank _ (List.mem_of_mem_head? first))

theorem takeWhile_append_of_isCut {name tail : Text} (proper : ∀ c ∈ name, isIdentifier c = true)
    (cut : IsCut tail) : (name ++ tail).takeWhile isIdentifier = name := by
  cases tail with
  | nil => rw [List.takeWhile_append_of_pos proper, List.takeWhile_nil, List.append_nil]
  | cons c tail => exact takeWhile_append_cons proper (isCut_cons.1 cut) tail

theorem dropWhile_append_of_isCut {name tail : Text} (proper : ∀ c ∈ name, isIdentifier c = true)
    (cut : IsCut tail) : (name ++ tail).dropWhile isIdentifier = tail := by
  cases tail with
  | nil => rw [List.dropWhile_append_of_pos proper, List.dropWhile_nil]
  | cons c tail => exact dropWhile_append_cons proper (isCut_cons.1 cut) tail

theorem dropWhile_append_of_ne_nil {p : CodePoint → Bool} {t : Text} (some : t.dropWhile p ≠ [])
    (more : Text) : (t ++ more).dropWhile p = t.dropWhile p ++ more := by
  rw [List.dropWhile_append]
  exact if_neg fun none => some (List.isEmpty_iff.1 none)

theorem takeWhile_append_of_ne_nil {p : CodePoint → Bool} {t : Text} (some : t.dropWhile p ≠ [])
    (more : Text) : (t ++ more).takeWhile p = t.takeWhile p := by
  rw [List.takeWhile_append]
  refine if_neg fun same => some ?_
  have lengths := congrArg List.length (List.takeWhile_append_dropWhile (p := p) (l := t))
  rw [List.length_append, same] at lengths
  exact List.eq_nil_of_length_eq_zero (by omega)

/-! ## Keywords -/

theorem ne_nil_of_skipBlank? {t rest : Text} (read : skipBlank? t = some rest) : t ≠ [] := by
  rintro rfl
  cases read

theorem isCut_of_skipBlank? {t rest : Text} (read : skipBlank? t = some rest) : IsCut t := by
  cases t with
  | nil => exact isCut_nil
  | cons b t =>
    rw [isCut_cons]
    by_cases blank : isBlank b = true
    · exact isIdentifier_of_isBlank blank
    · simp [skipBlank?, blank] at read

section
variable {keywords : List Text} (proper : ∀ word ∈ keywords, ∀ c ∈ word, isIdentifier c = true)
include proper

/-- A keyword is all of the identifier that the text opens with. -/
theorem keyword?_eq_some_iff {t rest : Text} : keyword? keywords t = some rest ↔
    t.takeWhile isIdentifier ∈ keywords ∧ skipBlank? (t.dropWhile isIdentifier) = some rest := by
  have whole : ∀ word ∈ keywords, ∀ left found, dropHead? word t = some left →
      skipBlank? left = some found →
      t.takeWhile isIdentifier = word ∧ t.dropWhile isIdentifier = left := by
    intro word listed left found read blank
    have cut := isCut_of_skipBlank? blank
    rw [dropHead?_eq_some_iff.1 read]
    exact ⟨takeWhile_append_of_isCut (proper word listed) cut,
      dropWhile_append_of_isCut (proper word listed) cut⟩
  constructor
  · intro read
    obtain ⟨word, listed, found⟩ := List.exists_of_findSome?_eq_some read
    obtain ⟨left, here, blank⟩ := Option.bind_eq_some_iff.1 found
    obtain ⟨same, behind⟩ := whole word listed left rest here blank
    rw [same, behind]
    exact ⟨listed, blank⟩
  · rintro ⟨listed, blank⟩
    have here : dropHead? (t.takeWhile isIdentifier) t = some (t.dropWhile isIdentifier) :=
      dropHead?_eq_some_iff.2 List.takeWhile_append_dropWhile.symm
    cases read : keyword? keywords t with
    | none =>
      have nothing := List.findSome?_eq_none_iff.1 read _ listed
      rw [here, Option.bind_some, blank] at nothing
      cases nothing
    | some other =>
      obtain ⟨word, among, found⟩ := List.exists_of_findSome?_eq_some read
      obtain ⟨left, first, behind⟩ := Option.bind_eq_some_iff.1 found
      obtain ⟨-, same⟩ := whole word among left other first behind
      rw [same, behind] at blank
      exact blank

/-- A keyword with something behind its blanks is one whatever the text goes on with. -/
theorem keyword?_append {t rest : Text} (read : keyword? keywords t = some rest) (some : rest ≠ [])
    (more : Text) : keyword? keywords (t ++ more) = .some (rest ++ more) := by
  obtain ⟨listed, blank⟩ := (keyword?_eq_some_iff proper).1 read
  have left := ne_nil_of_skipBlank? blank
  rw [keyword?_eq_some_iff proper, takeWhile_append_of_ne_nil left, dropWhile_append_of_ne_nil left]
  refine ⟨listed, ?_⟩
  obtain ⟨b, behind, same⟩ := List.exists_cons_of_ne_nil left
  rw [same, skipBlank?] at blank
  rw [same, List.cons_append, skipBlank?]
  by_cases isIt : isBlank b = true
  · rw [if_pos isIt, Option.some.injEq] at blank ⊢
    rw [← blank] at some ⊢
    exact dropWhile_append_of_ne_nil some more
  · rw [if_neg isIt] at blank
    cases blank

end

theorem proper_of_all {words : List Text} (all : words.all (·.all isIdentifier) = true) :
    ∀ word ∈ words, ∀ c ∈ word, isIdentifier c = true :=
  fun word known => List.all_eq_true.1 (List.all_eq_true.1 all word known)

theorem proper_of_component : ∀ word ∈ componentKeywords, ∀ c ∈ word, isIdentifier c = true :=
  proper_of_all (by decide)

/-! ## Where declarations begin -/

/-- The text opens with a capital letter. -/
def IsCapitalized (t : Text) : Prop := ∃ c ∈ t.head?, isCapital c = true

instance (t : Text) : Decidable (IsCapitalized t) :=
  decidable_of_iff (t.head?.any isCapital = true) (by cases t <;> simp [IsCapitalized])

theorem isCapitalized_cons {c : CodePoint} {t : Text} : IsCapitalized (c :: t) ↔ isCapital c = true := by
  simp [IsCapitalized]

/-- The text opens with a keyword, and with a capital letter behind the blanks that follow it. -/
def Opens (t : Text) : Prop :=
  t.takeWhile isIdentifier ∈ componentKeywords ∧ IsCapitalized (skipBlank (t.dropWhile isIdentifier))

theorem isIdentifier_of_isCapital {c : CodePoint} (capital : isCapital c = true) :
    isIdentifier c = true := by
  obtain ⟨above, below⟩ := Bool.and_eq_true_iff.1 capital
  have first : 65 ≤ c.toNat := of_decide_eq_true above
  have last : c.toNat ≤ 90 := of_decide_eq_true below
  have basic : c.toNat < 128 := Nat.lt_of_le_of_lt last (by decide)
  simp [isIdentifier, isWord, if_pos basic, CodePoint.isAlphanum, first, last]

theorem componentDeclaration?_eq_some_iff {t : Text} {found : Text × Text} :
    componentDeclaration? t = some found ↔ t.takeWhile isIdentifier ∈ componentKeywords ∧
      ∃ body, skipBlank? (t.dropWhile isIdentifier) = some body ∧ IsCapitalized body ∧
        componentName? body = some found := by
  rw [componentDeclaration?, Option.bind_eq_some_iff]
  constructor
  · rintro ⟨body, read, named⟩
    obtain ⟨listed, blank⟩ := (keyword?_eq_some_iff proper_of_component).1 read
    cases body with
    | nil => cases named
    | cons c body =>
      by_cases capital : isCapital c = true
      · refine ⟨listed, c :: body, blank, isCapitalized_cons.2 capital, ?_⟩
        simpa [capital] using named
      · simp [capital] at named
  · rintro ⟨listed, body, blank, capitalized, named⟩
    refine ⟨body, (keyword?_eq_some_iff proper_of_component).2 ⟨listed, blank⟩, ?_⟩
    cases body with
    | nil => simp [IsCapitalized] at capitalized
    | cons c body => simpa [isCapitalized_cons.1 capitalized] using named

theorem Opens.of_declaration {t : Text} (some : componentDeclaration? t ≠ none) : Opens t := by
  obtain ⟨found, read⟩ := Option.ne_none_iff_exists'.1 some
  obtain ⟨listed, body, blank, capitalized, -⟩ := componentDeclaration?_eq_some_iff.1 read
  refine ⟨listed, ?_⟩
  cases left : t.dropWhile isIdentifier with
  | nil => rw [left] at blank; cases blank
  | cons b rest =>
    by_cases isIt : isBlank b = true
    · rw [left, skipBlank?, if_pos isIt] at blank
      rw [skipBlank, List.dropWhile_cons_of_pos isIt]
      cases blank
      exact capitalized
    · rw [left, skipBlank?, if_neg isIt] at blank
      cases blank

/-- No declaration begins in a text if none opens with one of the ends of the text. -/
theorem barren_of_not_opens {t rest : Text}
    (none : ∀ u, u ≠ [] → u <:+ t → ¬ Opens (u ++ rest)) :
    Barren (atBoundary componentDeclaration?) rest t := by
  refine barren_of_suffixes fun u some ends boundary => atBoundary_eq_none ?_ boundary
  by_contra there
  exact none u some ends (.of_declaration there)

theorem opens_append_iff {name tail : Text} (proper : ∀ c ∈ name, isIdentifier c = true)
    (cut : IsCut tail) :
    Opens (name ++ tail) ↔ name ∈ componentKeywords ∧ IsCapitalized (skipBlank tail) := by
  rw [Opens, takeWhile_append_of_isCut proper cut, dropWhile_append_of_isCut proper cut]

/-! ## Names -/

theorem Gap.skipBlank_name (gap : Gap) (name : Name) (rest : Text) :
    skipBlank (gap.text ++ (name.text ++ rest)) = name.text ++ rest := by
  obtain ⟨c, t, opens, proper⟩ := name.opens
  rw [opens, List.cons_append]
  exact skipBlank_append gap.blank (isBlank_of_isIdentifier proper) (t ++ rest)

/-- The signs of the word `extends` do not go on into what follows a cut. -/
theorem dropHead?_extends_append (t : Text) {more : Text} (cut : IsCut more) :
    dropHead? "extends" (t ++ more) = (dropHead? "extends" t).map (· ++ more) := by
  cases read : dropHead? "extends" t with
  | some rest =>
    rw [dropHead?_eq_some_iff.1 read, List.append_assoc]
    exact dropHead?_eq_some_iff.2 rfl
  | none =>
    by_contra there
    obtain ⟨rest, longer⟩ := Option.ne_none_iff_exists'.1 there
    rcases List.append_eq_append_iff.1 (dropHead?_eq_some_iff.1 longer) with
      ⟨left, word, follows⟩ | ⟨left, whole, -⟩
    · cases left with
      | nil =>
        rw [List.append_nil] at word
        rw [← word, dropHead?_eq_some_iff.2 (List.append_nil _).symm] at read
        cases read
      | cons c left =>
        have inside : c ∈ ("extends" : Text) := by
          rw [word]
          simp
        have proper : isIdentifier c = true := List.all_eq_true.1 (by decide) c inside
        rw [cut c (by simp [follows])] at proper
        cases proper
    · rw [whole, dropHead?_eq_some_iff.2 rfl] at read
      cases read

/-- The word `extends` in a text does not depend on what follows where no identifier goes on. -/
theorem extendsWord?_append (t : Text) {more : Text} (cut : IsCut more) :
    extendsWord? (t ++ more) = (extendsWord? t).map (· ++ more) := by
  have apart : ∀ c ∈ more.head?, isWord c = false := by
    intro c first
    have other := cut c first
    simp only [isIdentifier, Bool.or_eq_false_iff] at other
    exact other.1
  rw [extendsWord?, extendsWord?, dropHead?_extends_append t cut]
  cases dropHead? "extends" t with
  | none => rfl
  | some rest =>
    rw [Option.map_some, Option.bind_some, Option.bind_some]
    cases rest with
    | nil =>
      cases more with
      | nil => rfl
      | cons c more => simp [apart c (by simp)]
    | cons c rest => by_cases word : isWord c = true <;> simp [word]

/-- The longest beginning of a name that the word `extends` follows in the name itself, and what is
left of the name behind this word. -/
def gluedName? (name : Text) : Option (Text × Text) :=
  (List.range name.length).reverse.findSome? fun k =>
    if k = 0 then none else (extendsWord? (name.drop k)).map (name.take k, ·)

theorem gluedName?_eq_some {name first rest : Text} (found : gluedName? name = some (first, rest)) :
    first ≠ [] ∧ name = first ++ ("extends" ++ rest) := by
  obtain ⟨k, listed, here⟩ := List.exists_of_findSome?_eq_some found
  have within : k < name.length := by simpa using listed
  by_cases zero : k = 0
  · simp [zero] at here
  · rw [if_neg zero] at here
    obtain ⟨left, read, same⟩ := Option.map_eq_some_iff.1 here
    obtain ⟨rfl, rfl⟩ := Prod.mk.inj same
    obtain ⟨behind, word, ends⟩ := Option.bind_eq_some_iff.1 read
    have cutOff : name.drop k = "extends" ++ behind := dropHead?_eq_some_iff.1 word
    have kept : behind = left := by
      split at ends
      · cases ends
      · exact Option.some.inj ends
    refine ⟨fun none => ?_, ?_⟩
    · have length := congrArg List.length none
      rw [List.length_take, List.length_nil] at length
      omega
    · rw [← kept, ← cutOff, List.take_append_drop]

theorem findSome?_congr {ks : List Nat} {f g : Nat → Option (Text × Text)}
    (same : ∀ k ∈ ks, f k = g k) : ks.findSome? f = ks.findSome? g := by
  induction ks with
  | nil => rfl
  | cons k ks ih =>
    obtain ⟨here, later⟩ := List.forall_mem_cons.1 same
    rw [List.findSome?_cons, List.findSome?_cons, here, ih later]

/-- What is recognised as a name: all of it if an opening follows, and else the part in front of a
word `extends` in it. -/
theorem componentName?_append (name : Name) {tail : Text} (cut : IsCut tail) :
    componentName? (name.text ++ tail) =
      match componentOpening? (skipBlank tail) with
      | some rest => some (name.text, rest)
      | none => (gluedName? name.text).map fun (first, rest) => (first, rest ++ tail) := by
  rw [componentName?, takeWhile_append_of_isCut name.proper cut,
    dropWhile_append_of_isCut name.proper cut]
  cases componentOpening? (skipBlank tail) with
  | some rest => rfl
  | none =>
    simp only [gluedName?, List.map_findSome?]
    refine findSome?_congr fun k listed => ?_
    have within : k ≤ name.text.length := by
      have less : k < name.text.length := by simpa using listed
      omega
    by_cases zero : k = 0
    · simp [zero]
    · simp only [zero, if_false, Function.comp_apply, List.drop_append_of_le_length within,
        List.take_append_of_le_length within, extendsWord?_append _ cut, Option.map_map]
      rfl

/-- What is recognised of a name in front of a text: all of it, or the part in front of a word
`extends` in it. -/
inductive IsNamed (name : Name) (tail : Text) : Text × Text → Prop
  | whole {rest : Text} (opening : componentOpening? (skipBlank tail) = some rest) :
    IsNamed name tail (name.text, rest)
  | part {first rest : Text} (closed : componentOpening? (skipBlank tail) = none)
    (glued : gluedName? name.text = some (first, rest)) : IsNamed name tail (first, rest ++ tail)

theorem componentName?_eq_some_iff {name : Name} {tail : Text} (cut : IsCut tail)
    {found : Text × Text} :
    componentName? (name.text ++ tail) = some found ↔ IsNamed name tail found := by
  rw [componentName?_append name cut]
  constructor
  · intro named
    cases opening : componentOpening? (skipBlank tail) with
    | some rest =>
      rw [opening] at named
      cases named
      exact .whole opening
    | none =>
      rw [opening] at named
      obtain ⟨_, glued, rfl⟩ := Option.map_eq_some_iff.1 named
      exact .part opening glued
  · rintro (opening | ⟨closed, glued⟩)
    · rw [opening]
    · rw [closed, glued]
      rfl

/-! ## Declarations that stay -/

/-- What is recognised as an opening is so whatever follows it. -/
theorem componentOpening?_append {t rest : Text} (read : componentOpening? t = some rest)
    {more : Text} (cut : IsCut more) : componentOpening? (t ++ more) = some (rest ++ more) := by
  cases t with
  | nil => cases read
  | cons c t =>
    rw [componentOpening?] at read
    rw [List.cons_append, componentOpening?]
    by_cases sign : (['(', '{', '=', '<', ':'] : Text).contains c = true
    · rw [if_pos sign] at read ⊢
      rw [Option.some.inj read]
    · rw [if_neg sign] at read ⊢
      rw [← List.cons_append, extendsWord?_append _ cut, read]
      rfl

/-- A name with the word `extends` in it is not in capitals only. -/
theorem isConstantName_glued (first rest : Text) :
    isConstantName (first ++ ("extends" ++ rest)) = false := by
  have letter : isLower 'e' = true := by decide
  have small : (first ++ (("extends" : Text) ++ rest)).any isLower = true := by simp [letter]
  rw [isConstantName, isAllUpper, small]
  simp

/-- How a declaration is composed: a keyword, white space, and a name with a capital initial that is
complete in front of what follows it. -/
inductive IsComposed : Text → Text × Text → Prop
  | of {word tail : Text} {space : Space} {name : Name} {found : Text × Text}
    (known : word ∈ componentKeywords) (cut : IsCut tail) (capitalized : IsCapitalized name.text)
    (named : IsNamed name tail found) :
    IsComposed (word ++ (space.text ++ (name.text ++ tail))) found

theorem skipBlank?_space (space : Space) (name : Name) (rest : Text) :
    skipBlank? (space.text ++ (name.text ++ rest)) = some (name.text ++ rest) := by
  obtain ⟨c, t, opens, proper⟩ := name.opens
  rw [opens, List.cons_append]
  exact skipBlank?_append space.blank space.some (isBlank_of_isIdentifier proper) (t ++ rest)

theorem Space.isCut_append (space : Space) (rest : Text) : IsCut (space.text ++ rest) := by
  obtain ⟨c, t, opens, other⟩ := space.opens
  rw [opens, List.cons_append, isCut_cons]
  exact other

theorem isCapitalized_append (name : Name) (rest : Text) :
    IsCapitalized (name.text ++ rest) ↔ IsCapitalized name.text := by
  obtain ⟨c, t, opens, -⟩ := name.opens
  rw [opens, List.cons_append, isCapitalized_cons, isCapitalized_cons]

theorem isCut_dropWhile (t : Text) : IsCut (t.dropWhile isIdentifier) := by
  intro c first
  have other := List.head?_dropWhile_not isIdentifier t
  rw [Option.mem_def.1 first] at other
  exact other

/-- What blanks have been skipped in front of has white space in front of it. -/
theorem exists_space {t rest : Text} (read : skipBlank? t = some rest) :
    ∃ space : Space, t = space.text ++ rest := by
  cases t with
  | nil => cases read
  | cons b t =>
    by_cases blank : isBlank b = true
    · have behind : t.dropWhile isBlank = rest := by simpa [skipBlank?, blank, skipBlank] using read
      refine ⟨{ text := b :: t.takeWhile isBlank, blank := ?_, some := List.cons_ne_nil _ _ }, ?_⟩
      · exact List.forall_mem_cons.2 ⟨blank, fun _ inside => List.mem_takeWhile_imp inside⟩
      · rw [← behind]
        exact congrArg (b :: ·) List.takeWhile_append_dropWhile.symm
    · simp [skipBlank?, blank] at read

/-- What opens with a capital letter opens with a name. -/
theorem exists_name {t : Text} (capitalized : IsCapitalized t) :
    ∃ (name : Name) (tail : Text), t = name.text ++ tail ∧ IsCut tail := by
  cases t with
  | nil => simp [IsCapitalized] at capitalized
  | cons c t =>
    have proper := isIdentifier_of_isCapital (isCapitalized_cons.1 capitalized)
    let name : Name :=
      { text := (c :: t).takeWhile isIdentifier
        some := by simp [proper]
        proper := fun _ inside => List.mem_takeWhile_imp inside }
    exact ⟨name, (c :: t).dropWhile isIdentifier, List.takeWhile_append_dropWhile.symm,
      isCut_dropWhile _⟩

theorem componentDeclaration?_iff_isComposed {t : Text} {found : Text × Text} :
    componentDeclaration? t = some found ↔ IsComposed t found := by
  rw [componentDeclaration?_eq_some_iff]
  constructor
  · rintro ⟨listed, body, blank, capitalized, read⟩
    obtain ⟨space, behind⟩ := exists_space blank
    obtain ⟨name, tail, rfl, cut⟩ := exists_name capitalized
    have whole : t = t.takeWhile isIdentifier ++ (space.text ++ (name.text ++ tail)) := by
      rw [← behind, List.takeWhile_append_dropWhile]
    rw [whole]
    exact .of listed cut ((isCapitalized_append name tail).1 capitalized)
      ((componentName?_eq_some_iff cut).1 read)
  · rintro ⟨known, cut, capitalized, named⟩
    rename_i word tail space name
    have proper := proper_of_component word known
    have apart := space.isCut_append (name.text ++ tail)
    rw [takeWhile_append_of_isCut proper apart, dropWhile_append_of_isCut proper apart]
    exact ⟨known, _, skipBlank?_space space name tail, (isCapitalized_append name tail).2 capitalized,
      (componentName?_eq_some_iff cut).2 named⟩

/-- Where a text goes on behind a cut, its declarations stay. One may get a longer name, that is no
constant's, because the word `extends` in it has become a part of it. -/
theorem outlasts_component {rest : Text} (cut : IsCut rest) :
    Outlasts (atBoundary componentDeclaration?) (!isConstantName ·) rest := by
  intro boundary t found left read isGood
  cases boundary with
  | false => cases read
  | true =>
    have composed := componentDeclaration?_iff_isComposed.1 read
    obtain ⟨known, apart, capitalized, named⟩ := composed
    rename_i word tail space name
    have stays : ∀ {other}, IsNamed name (tail ++ rest) other → atBoundary componentDeclaration? true
        (word ++ (space.text ++ (name.text ++ tail)) ++ rest) = some other := by
      intro other still
      rw [List.append_assoc, List.append_assoc, List.append_assoc]
      exact componentDeclaration?_iff_isComposed.2 (.of known (apart.append cut) capitalized still)
    cases named with
    | whole opening =>
      have visible : skipBlank tail ≠ [] := by
        intro none
        rw [none] at opening
        cases opening
      have same : skipBlank (tail ++ rest) = skipBlank tail ++ rest :=
        dropWhile_append_of_ne_nil visible rest
      have further := componentOpening?_append opening cut
      rw [← same] at further
      exact ⟨_, _, stays (.whole further), isGood⟩
    | part closed glued =>
      cases opening : componentOpening? (skipBlank (tail ++ rest)) with
      | some more =>
        have constant : isConstantName name.text = false := by
          rw [(gluedName?_eq_some glued).2]
          exact isConstantName_glued _ _
        exact ⟨_, _, stays (.whole opening), by simp [constant]⟩
      | none => exact ⟨_, _, stays (.part opening glued), isGood⟩

/-! ## Declarations that keep apart -/

/-- The letters that keywords open with. -/
def initials : Text := (['f', 'c', 'l'] : Text)

theorem mem_initials_of_opens {c : CodePoint} {t : Text} (opens : Opens (c :: t)) : c ∈ initials := by
  have each : ∀ word ∈ componentKeywords, word.head?.any initials.contains = true :=
    List.all_eq_true.1 (by decide)
  have first := each _ opens.1
  rw [List.takeWhile_cons] at first
  split at first
  · simpa using first
  · cases first

theorem not_mem_initials_of_sign {c : CodePoint} (sign : c ∈ (['(', '{', '=', '<', ':'] : Text)) :
    c ∉ initials := by
  have each : ∀ d ∈ (['(', '{', '=', '<', ':'] : Text), (!initials.contains d) = true :=
    List.all_eq_true.1 (by decide)
  simpa using each c sign

theorem not_mem_initials_of_extends {c : CodePoint} (inside : c ∈ ("extends" : Text)) :
    c ∉ initials := by
  have each : ∀ d ∈ ("extends" : Text), (!initials.contains d) = true := List.all_eq_true.1 (by decide)
  simpa using each c inside

/-- No declaration begins in a text without the letters that keywords open with. -/
theorem barren_of_initials {t : Text} (free : ∀ c ∈ t, c ∉ initials) (rest : Text) :
    Barren (atBoundary componentDeclaration?) rest t := by
  refine barren_of_not_opens fun u some ends opens => ?_
  obtain ⟨c, u, rfl⟩ := List.exists_cons_of_ne_nil some
  exact free c (ends.subset (List.mem_cons_self ..)) (mem_initials_of_opens opens)

theorem Gap.barren (gap : Gap) (rest : Text) :
    Barren (atBoundary componentDeclaration?) rest gap.text := by
  refine barren_of_initials (fun c inside listed => ?_) rest
  have proper : ∀ c ∈ initials, isIdentifier c = true := List.all_eq_true.1 (by decide)
  have other := isIdentifier_of_isBlank (gap.blank c inside)
  rw [proper c listed] at other
  cases other

/-- No declaration begins behind the first letter of a keyword. -/
theorem barren_keyword {c : CodePoint} {word : Text} (known : c :: word ∈ componentKeywords)
    {rest : Text}
    (cut : IsCut rest) : Barren (atBoundary componentDeclaration?) rest word := by
  have none : ∀ word ∈ componentKeywords, ∀ u ∈ word.tail.tails, u ∉ componentKeywords := by decide
  refine barren_of_not_opens fun u some ends opens => ?_
  have proper : ∀ d ∈ u, isIdentifier d = true := fun d inside =>
    proper_of_component _ known d (List.mem_cons_of_mem c (ends.subset inside))
  exact none _ known u ((List.mem_tails ..).2 ends) ((opens_append_iff proper cut).1 opens).1

/-- No declaration begins in a name unless it is followed by a capital letter behind blanks. -/
theorem Name.barren (name : Name) {rest : Text} (cut : IsCut rest)
    (other : ¬ IsCapitalized (skipBlank rest)) :
    Barren (atBoundary componentDeclaration?) rest name.text := by
  refine barren_of_not_opens fun u some ends opens => ?_
  have proper : ∀ d ∈ u, isIdentifier d = true := fun d inside =>
    name.proper d (ends.subset inside)
  exact other ((opens_append_iff proper cut).1 opens).2

/-- No declaration begins in front of a word `extends` in a name. -/
theorem barren_glued {first rest tail : Text}
    (proper : ∀ c ∈ first ++ (("extends" : Text) ++ rest), isIdentifier c = true) (cut : IsCut tail) :
    Barren (atBoundary componentDeclaration?) (rest ++ tail) (first ++ "extends") := by
  have free : ∀ word ∈ componentKeywords, .scalar 'x' ∉ word := by decide
  refine barren_append.2 ⟨barren_of_not_opens fun u some ends opens => ?_,
    barren_of_initials (fun _ => not_mem_initials_of_extends) _⟩
  have whole : u ++ (("extends" : Text) ++ (rest ++ tail)) = (u ++ ("extends" ++ rest)) ++ tail := by
    simp
  rw [whole, opens_append_iff _ cut] at opens
  · exact free _ opens.1 (by simp)
  · intro d inside
    rcases List.mem_append.1 inside with here | there
    · exact proper d (List.mem_append_left _ (ends.subset here))
    · exact proper d (List.mem_append_right _ there)

/-- What is recognised as an opening is a sign or a word, in which no declaration begins. -/
theorem exists_of_opening {t rest : Text} (read : componentOpening? t = some rest) :
    ∃ opener, t = opener ++ rest ∧ (∀ c ∈ opener, c ∉ initials) ∧ ¬ IsCapitalized t := by
  cases t with
  | nil => cases read
  | cons c t =>
    rw [componentOpening?] at read
    by_cases sign : (['(', '{', '=', '<', ':'] : Text).contains c = true
    · rw [if_pos sign] at read
      have listed := List.contains_iff_mem.1 sign
      have small : ∀ d ∈ (['(', '{', '=', '<', ':'] : Text), (!isCapital d) = true :=
        List.all_eq_true.1 (by decide)
      refine ⟨[c], by rw [Option.some.inj read]; rfl, ?_, ?_⟩
      · simpa using not_mem_initials_of_sign listed
      · simpa [isCapitalized_cons] using small c listed
    · rw [if_neg sign] at read
      obtain ⟨left, word, ends⟩ := Option.bind_eq_some_iff.1 read
      have whole := dropHead?_eq_some_iff.1 word
      have kept : left = rest := by
        split at ends
        · cases ends
        · exact Option.some.inj ends
      refine ⟨"extends", by rw [whole, kept], fun _ => not_mem_initials_of_extends, ?_⟩
      rw [whole]
      exact fun capitalized => absurd (isCapitalized_cons.1 capitalized) (by decide)

theorem keepsApart_component : KeepsApart (atBoundary componentDeclaration?) := by
  intro boundary c t found rest read
  cases boundary with
  | false => cases read
  | true =>
    have composed := componentDeclaration?_iff_isComposed.1 read
    generalize whole : c :: t = declaration at composed
    obtain ⟨known, cut, capitalized, named⟩ := composed
    rename_i word tail space name
    obtain ⟨d, word, rfl⟩ : ∃ d more, word = d :: more :=
      List.exists_cons_of_ne_nil fun none => by rw [none] at known; revert known; decide
    obtain ⟨rfl, rfl⟩ := List.cons.inj whole
    -- The keyword and the white space are barren whatever is recognised behind them.
    suffices behind : ∃ covered, name.text ++ tail = covered ++ rest ∧
        Barren (atBoundary componentDeclaration?) rest covered by
      obtain ⟨covered, same, barren⟩ := behind
      have apart : IsCut (space.text ++ covered ++ rest) := by
        rw [List.append_assoc]
        exact space.isCut_append _
      exact ⟨word ++ (space.text ++ covered), by simp [same], barren_append.2
        ⟨barren_keyword known apart, barren_append.2 ⟨space.barren _, barren⟩⟩⟩
    cases named with
    | whole opening =>
      obtain ⟨opener, split, free, small⟩ := exists_of_opening opening
      let gap : Gap := ⟨tail.takeWhile isBlank, fun _ inside => List.mem_takeWhile_imp inside⟩
      have parts : tail = gap.text ++ (opener ++ rest) := by
        rw [← split]
        exact List.takeWhile_append_dropWhile.symm
      refine ⟨name.text ++ (gap.text ++ opener), by simp [← parts], barren_append.2
        ⟨?_, barren_append.2 ⟨gap.barren _, barren_of_initials free _⟩⟩⟩
      rw [List.append_assoc, ← parts]
      exact name.barren cut small
    | part closed glued =>
      have split := (gluedName?_eq_some glued).2
      refine ⟨found ++ "extends", by rw [split]; simp, barren_glued ?_ cut⟩
      rw [← split]
      exact name.proper

end ModuleAtlas.Source
