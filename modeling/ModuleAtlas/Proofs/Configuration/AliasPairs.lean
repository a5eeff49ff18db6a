import ModuleAtlas.Proofs.Configuration.Exports
/-!
What is read from pairs of keys and targets between blanks. A key is read up to its quote or the
blanks behind it, a call of a path function is passed over, and so each pair is recognised as a whole
(`aliasPair?_text`). Nothing begins at the blanks and signs between two pairs; what is found among
some pairs are the pairs, in their order (`occurrencesFrom_pairs`).
-/
namespace ModuleAtlas.Configuration
open Text

/-! ## Kinds of characters -/

/-- A character of a key is no blank, no quote and no sign. -/
theorem apart_of_continuesKey {c : CodePoint} (known : continuesKey c = true) :
    isBlank c = false ∧ isQuote c = false ∧ c ∉ ([':', '{', '}'] : Text) := by
  refine ⟨?_, ?_, ?_⟩
  · cases blank : isBlank c
    · rfl
    · have strange := isIdentifier_of_isBlank blank
      rw [isIdentifier, Bool.or_eq_false_iff] at strange
      have signs : c ∈ (['@', '~', '.', '/', '-'] : Text) := by
        simpa [continuesKey, opensKey, strange, or_assoc] using known
      simp only [List.mem_cons, List.not_mem_nil, or_false] at signs
      rcases signs with rfl | rfl | rfl | rfl | rfl <;> exact absurd blank (by decide)
  · cases quote : isQuote c
    · rfl
    · rcases isQuote_iff.1 quote with rfl | rfl <;> exact absurd known (by decide)
  · intro sign
    simp only [List.mem_cons, List.not_mem_nil, or_false] at sign
    rcases sign with rfl | rfl | rfl <;> exact absurd known (by decide)

/-- No pair begins with the character. -/
def IsIdle (c : CodePoint) : Prop := isQuote c = false ∧ continuesKey c = false

theorem isIdle_of_isBlank {c : CodePoint} (blank : isBlank c = true) : IsIdle c := by
  constructor
  · cases quote : isQuote c
    · rfl
    · rw [isBlank_of_isQuote quote] at blank
      cases blank
  · cases known : continuesKey c
    · rfl
    · rw [(apart_of_continuesKey known).1] at blank
      cases blank

theorem continuesKey_of_isQuote {c : CodePoint} (quote : isQuote c = true) : continuesKey c = false := by
  cases known : continuesKey c
  · rfl
  · rw [(apart_of_continuesKey known).2.1] at quote
    cases quote

theorem AliasKey.continues_name (key : AliasKey) : ∀ c ∈ key.name, continuesKey c = true := by
  refine List.forall_mem_cons.2 ⟨?_, key.continues⟩
  rw [continuesKey, key.opens]
  rfl

/-! ## Pairs -/

theorem dropQuote_quote {c : CodePoint} (quote : isQuote c = true) (t : Text) : dropQuote (c :: t) = t :=
  if_pos quote

theorem dropQuote_other {c : CodePoint} (other : isQuote c = false) (t : Text) :
    dropQuote (c :: t) = c :: t := if_neg (by simp [other])

/-- A key ends where its quote or what follows it begins. -/
theorem aliasKey?_text (key : AliasKey) {before after : Text}
    (first : ∀ c ∈ before, isBlank c = true) (second : ∀ c ∈ after, isBlank c = true) {c : CodePoint}
    (visible : isBlank c = false) (rest : Text) :
    aliasKey? (key.text ++ (before ++ .scalar ':' :: (after ++ c :: rest))) =
      some (key.name, c :: rest) := by
  have colon : skipBlank (before ++ .scalar ':' :: (after ++ c :: rest)) =
      .scalar ':' :: (after ++ c :: rest) :=
    skipBlank_append first (by decide) _
  have plain : isQuote key.first = false :=
    (apart_of_continuesKey (key.continues_name key.first (by simp [AliasKey.name]))).2.1
  obtain ⟨d, behind, ends, other, closed⟩ : ∃ d behind,
      key.text ++ (before ++ .scalar ':' :: (after ++ c :: rest)) =
        key.quote.toList ++ key.first :: (key.more ++ d :: behind) ∧
      continuesKey d = false ∧ skipBlank (dropQuote (d :: behind)) =
        .scalar ':' :: (after ++ c :: rest) := by
    cases same : key.quote with
    | some quote =>
      have quotes := key.quotes quote (by simp [same])
      refine ⟨quote, before ++ .scalar ':' :: (after ++ c :: rest),
        by simp [AliasKey.text, AliasKey.name, same],
        continuesKey_of_isQuote quotes, ?_⟩
      rw [dropQuote_quote quotes, colon]
    | none =>
      obtain ⟨d, behind, opens, idle⟩ : ∃ d behind,
          before ++ .scalar ':' :: (after ++ c :: rest) = d :: behind ∧ IsIdle d := by
        cases before with
        | nil => exact ⟨':', _, rfl, by decide, by decide⟩
        | cons d before => exact ⟨d, _, rfl, isIdle_of_isBlank (first d (by simp))⟩
      refine ⟨d, behind, by simp [AliasKey.text, AliasKey.name, same, opens], idle.2, ?_⟩
      rw [dropQuote_other idle.1, ← opens, colon]
  have opened : dropQuote (key.quote.toList ++ key.first :: (key.more ++ d :: behind)) =
      key.first :: (key.more ++ d :: behind) := by
    cases same : key.quote with
    | none => exact dropQuote_other plain _
    | some quote => exact dropQuote_quote (key.quotes quote (by simp [same])) _
  have read : dropHead? [':'] (.scalar ':' :: (after ++ c :: rest)) = some (after ++ c :: rest) :=
    dropHead?_eq_some_iff.2 rfl
  rw [aliasKey?, ends, opened]
  simp only [key.opens, if_true, takeWhile_append_cons key.continues other,
    dropWhile_append_cons key.continues other, closed, read, Option.map_some,
    skipBlank_append second visible]
  rfl

theorem pathCall?_function (joined : Bool) (t : Text) :
    pathCall? (functionName joined ++ .scalar '(' :: t) =
      (dropHead? "__dirname" (skipBlank t)).bind fun t =>
        (dropHead? [','] (skipBlank t)).map skipBlank := by
  cases joined <;> rfl

section
variable {G : Type} {write : G → Text} (blank : ∀ gap, ∀ c ∈ write gap, isBlank c = true)

include blank in
/-- The call of a path function in front of a literal is passed over. -/
theorem pathCall?_front (form : Form G) {quote : CodePoint} (quotes : isQuote quote = true) (t : Text) :
    (pathCall? (form.front write ++ quote :: t)).getD (form.front write ++ quote :: t) =
      quote :: t := by
  cases form with
  | plain => rcases isQuote_iff.1 quotes with rfl | rfl <;> rfl
  | call joined inside before after behind =>
    have word : ∀ tail : Text, skipBlank (write inside ++ ("__dirname" ++ tail)) = "__dirname" ++ tail :=
      fun _ => skipBlank_append (blank inside) (by decide) _
    have comma : ∀ tail : Text, skipBlank (write before ++ .scalar ',' :: tail) = .scalar ',' :: tail :=
      fun _ => skipBlank_append (blank before) (by decide) _
    have literal : skipBlank (write after ++ quote :: t) = quote :: t :=
      skipBlank_append (blank after) (isBlank_of_isQuote quotes) t
    have directory : ∀ tail : Text, dropHead? "__dirname" ("__dirname" ++ tail) = some tail :=
      fun _ => dropHead?_eq_some_iff.2 rfl
    have read : pathCall? (Form.front write (.call joined inside before after behind) ++ quote :: t) =
        some (quote :: t) := by
      rw [Form.front, List.append_assoc, List.cons_append, pathCall?_function, List.append_assoc,
        List.append_assoc, word, directory, Option.bind_some, List.append_assoc, List.cons_append,
        comma, dropHead?_eq_some_iff.2 (List.singleton_append ..).symm, Option.map_some, literal]
    rw [read]
    rfl

theorem Form.opens (write : G → Text) (form : Form G) {quote : CodePoint}
    (quotes : isQuote quote = true) (t : Text) :
    ∃ c u, form.front write ++ quote :: t = c :: u ∧ isBlank c = false := by
  cases form with
  | plain => exact ⟨quote, t, rfl, isBlank_of_isQuote quotes⟩
  | call joined inside before after behind =>
    cases joined <;> exact ⟨'p', _, rfl, by decide⟩

include blank in
theorem aliasPair?_text (pair : AliasPair G) (rest : Text) :
    aliasPair? (pair.text write ++ rest) = some (pair.entry, rest) := by
  obtain ⟨key, before, after, form, target⟩ := pair
  obtain ⟨c, t, opens, visible⟩ := form.opens write target.quotes
    (target.words ++ target.quote :: rest)
  have whole : AliasPair.text write ⟨key, before, after, form, target⟩ ++ rest =
      key.text ++ (write before ++ .scalar ':' :: (write after ++ c :: t)) := by
    rw [← opens]
    simp [AliasPair.text, Literal.text]
  have behind := pathCall?_front blank form target.quotes (target.words ++ target.quote :: rest)
  rw [opens] at behind
  rw [whole, aliasPair?, aliasKey?_text key (blank before) (blank after) visible, Option.bind_some]
  simp only [behind, fullLiteral?_append target.quotes target.quotes target.some
    (fun c inside => (target.plain c inside).1), Option.map_some]
  rfl

theorem barren_of_isIdle {t : Text} (idle : ∀ c ∈ t, IsIdle c) (rest : Text) :
    Barren (anywhere aliasPair?) rest t := by
  induction t with
  | nil => trivial
  | cons c t ih =>
    obtain ⟨⟨plain, other⟩, later⟩ := List.forall_mem_cons.1 idle
    have closed : opensKey c = false := by
      rw [continuesKey, Bool.or_eq_false_iff, Bool.or_eq_false_iff, Bool.or_eq_false_iff] at other
      exact other.1.1.1
    refine ⟨fun _ => ?_, ih later⟩
    rw [anywhere, aliasPair?, aliasKey?, List.cons_append, dropQuote_other plain]
    simp [closed]

include blank

theorem Form.isIdle_of_mem_back (form : Form G) : ∀ c ∈ form.back write, IsIdle c := by
  cases form with
  | plain => simp [Form.back]
  | call _ _ _ _ behind =>
    refine List.forall_mem_append.2 ⟨fun c inside => isIdle_of_isBlank (blank behind c inside), ?_⟩
    exact List.forall_mem_singleton.2 ⟨by decide, by decide⟩

/-- A pair is found between the gaps around it. -/
theorem occurrencesFrom_pair (boundary : Bool) (before : G) (pair : AliasPair G) (behind : G)
    (rest : Text) :
    ∃ later, occurrencesFrom (anywhere aliasPair?) boundary 0
        (write before ++ (pair.text write ++ (pair.form.back write ++ (write behind ++ rest)))) =
      pair.entry :: occurrencesFrom (anywhere aliasPair?) later 0 rest := by
  have gap : ∀ gap : G, ∀ c ∈ write gap, IsIdle c :=
    fun gap c inside => isIdle_of_isBlank (blank gap c inside)
  have some : pair.text write ≠ [] := by
    intro none
    have read := aliasPair?_text blank pair []
    rw [none] at read
    cases read
  rw [occurrencesFrom_barren (barren_of_isIdle (gap before) _),
    occurrencesFrom_found some (aliasPair?_text blank pair _),
    occurrencesFrom_barren (barren_of_isIdle (pair.form.isIdle_of_mem_back blank) _),
    occurrencesFrom_barren (barren_of_isIdle (gap behind) _)]
  exact ⟨_, rfl⟩

/-- What is found among some pairs are the pairs. -/
theorem occurrencesFrom_pairs (pairs : AliasPairs G) (boundary : Bool) :
    occurrencesFrom (anywhere aliasPair?) boundary 0 (pairs.text write) = pairs.entries := by
  induction pairs generalizing boundary with
  | none gap =>
    have idle : ∀ c ∈ write gap, IsIdle c := fun c inside => isIdle_of_isBlank (blank gap c inside)
    have nothing := occurrencesFrom_barren (barren_of_isIdle idle []) boundary
    rw [List.append_nil] at nothing
    exact nothing
  | last before pair behind =>
    obtain ⟨later, found⟩ := occurrencesFrom_pair blank boundary before pair behind []
    rw [List.append_nil] at found
    exact found
  | more before pair behind rest ih =>
    obtain ⟨later, found⟩ := occurrencesFrom_pair blank boundary before pair behind
      (.scalar ',' :: rest.text write)
    have comma : ∀ c ∈ [.scalar ','], IsIdle c := List.forall_mem_singleton.2 ⟨by decide, by decide⟩
    have next := occurrencesFrom_barren (barren_of_isIdle comma (rest.text write)) later
    rw [List.singleton_append] at next
    rw [AliasPairs.text, found, next, ih]
    rfl

end
end ModuleAtlas.Configuration
