import ModuleAtlas.Text.Class
import ModuleAtlas.Text.Occurrence
import Mathlib.Data.List.Induction
/-!
Looking for a pattern in a text that is put together from parts. A part that the pattern recognises
as a whole is found there (`occurrencesFrom_found`); a part in which the pattern begins nowhere, with
what follows the part, is passed over (`occurrencesFrom_barren`). Both hand on to what follows only
whether a word character stands at their end (`edge`).
-/
namespace ModuleAtlas.Text
variable {α : Type} {pattern : Pattern α} {recognise : Text → Option (α × Text)}

/-! ## Boundaries -/

/-- Whether there is a boundary behind a text, given whether there is one before it. -/
def edge (boundary : Bool) : Text → Bool
  | [] => boundary
  | c :: t => edge (!isWord c) t

theorem edge_append (boundary : Bool) (s t : Text) :
    edge boundary (s ++ t) = edge (edge boundary s) t := by
  induction s generalizing boundary with
  | nil => rfl
  | cons c s ih => exact ih _

theorem edge_append_singleton (boundary : Bool) (t : Text) (c : CodePoint) :
    edge boundary (t ++ [c]) = !isWord c := edge_append boundary t [c]

/-- The text does not end in a word character. -/
def IsOpen (t : Text) : Prop := ∀ c ∈ t.getLast?, isWord c = false

instance (t : Text) : Decidable (IsOpen t) := inferInstanceAs (Decidable (∀ c ∈ t.getLast?, _))

/-- Behind a text that does not end in a word character a boundary stays a boundary. -/
theorem edge_of_isOpen {t : Text} (ends : IsOpen t) : edge true t = true := by
  induction t using List.reverseRecOn with
  | nil => rfl
  | append_singleton t c =>
    have last : isWord c = false := ends c (by simp)
    rw [edge_append_singleton, last]
    rfl

/-! ## Occurrences -/

/-- What belongs to an occurrence is passed over. -/
theorem occurrencesFrom_covered (boundary : Bool) (t rest : Text) :
    occurrencesFrom pattern boundary t.length (t ++ rest) =
      occurrencesFrom pattern (edge boundary t) 0 rest := by
  induction t generalizing boundary with
  | nil => rfl
  | cons c t ih => exact ih _

/-- A part that is recognised as a whole is found. -/
theorem occurrencesFrom_found {boundary : Bool} {t rest : Text} {found : α} (some : t ≠ [])
    (recognised : pattern boundary (t ++ rest) = .some (found, rest)) :
    occurrencesFrom pattern boundary 0 (t ++ rest) =
      found :: occurrencesFrom pattern (edge boundary t) 0 rest := by
  cases t with
  | nil => exact absurd rfl some
  | cons c t =>
    rw [List.cons_append] at recognised ⊢
    have covered : (t ++ rest).length - rest.length = t.length := by simp
    rw [occurrencesFrom, recognised]
    simp only [covered, occurrencesFrom_covered]
    rfl

/-- The pattern begins nowhere in a text, with what follows it. -/
def Barren (pattern : Pattern α) (rest : Text) : Text → Prop
  | [] => True
  | c :: t => (∀ boundary, pattern boundary (c :: t ++ rest) = none) ∧ Barren pattern rest t

theorem barren_append {rest s t : Text} :
    Barren pattern rest (s ++ t) ↔ Barren pattern (t ++ rest) s ∧ Barren pattern rest t := by
  induction s with
  | nil => simp [Barren]
  | cons c s ih => simp only [List.cons_append, Barren, ih, List.append_assoc, and_assoc]

/-- A part in which the pattern begins nowhere is passed over. -/
theorem occurrencesFrom_barren {t rest : Text} (barren : Barren pattern rest t) (boundary : Bool) :
    occurrencesFrom pattern boundary 0 (t ++ rest) =
      occurrencesFrom pattern (edge boundary t) 0 rest := by
  induction t generalizing boundary with
  | nil => rfl
  | cons c t ih =>
    obtain ⟨none, later⟩ := barren
    rw [List.cons_append, occurrencesFrom, ← List.cons_append, none]
    exact ih later _

/-- The first occurrence does not stand in a part in which the pattern begins nowhere. -/
theorem firstFrom?_barren {t rest : Text} (barren : Barren pattern rest t) (boundary : Bool) :
    firstFrom? pattern boundary (t ++ rest) = firstFrom? pattern (edge boundary t) rest := by
  induction t generalizing boundary with
  | nil => rfl
  | cons c t ih =>
    obtain ⟨none, later⟩ := barren
    rw [List.cons_append, firstFrom?, ← List.cons_append, none]
    exact ih later _

theorem firstFrom?_found {boundary : Bool} {t rest : Text} {found : α} (some : t ≠ [])
    (recognised : pattern boundary t = .some (found, rest)) :
    firstFrom? pattern boundary t = .some found := by
  cases t with
  | nil => exact absurd rfl some
  | cons c t => rw [firstFrom?, recognised]

/-- The pattern begins nowhere in a text if it begins with none of the ends of the text. -/
theorem barren_of_suffixes {rest t : Text}
    (none : ∀ u, u ≠ [] → u <:+ t → ∀ boundary, pattern boundary (u ++ rest) = .none) :
    Barren pattern rest t := by
  induction t with
  | nil => trivial
  | cons c t ih =>
    refine ⟨none (c :: t) (List.cons_ne_nil c t) List.suffix_rfl, ih fun u some ends => ?_⟩
    exact none u some (ends.trans (List.suffix_cons c t))

theorem atBoundary_eq_none {t : Text} (none : recognise t = .none) (boundary : Bool) :
    atBoundary recognise boundary t = .none := by
  cases boundary with
  | true => exact none
  | false => rfl

/-! ## Needles -/

/-- Where a needle is in a text, one is found, and what follows that one has all that follows it. -/
theorem after?_of_append (needle before after : Text) :
    ∃ rest, after? needle (before ++ (needle ++ after)) = some rest ∧ after <:+ rest := by
  induction before with
  | nil =>
    exact ⟨after, by rw [after?, List.nil_append, cutAt?_append, Option.map_some], List.suffix_rfl⟩
  | cons c before ih =>
    obtain ⟨rest, found, ends⟩ := ih
    rw [List.cons_append, after?, cutAt?]
    cases here : dropHead? needle (c :: (before ++ (needle ++ after))) with
    | some behind =>
      refine ⟨behind, rfl, ?_⟩
      have whole := dropHead?_eq_some_iff.1 here
      have lengths := congrArg List.length whole
      simp only [List.length_cons, List.length_append] at lengths
      have inside : after <:+ needle ++ behind := by
        rw [← whole]
        exact ⟨c :: (before ++ needle), by simp⟩
      exact List.suffix_of_suffix_length_le inside (List.suffix_append _ _) (by omega)
    | none =>
      obtain ⟨⟨front, behind⟩, cut, same⟩ := Option.map_eq_some_iff.1 found
      obtain rfl : behind = rest := same
      exact ⟨behind, by rw [cut]; rfl, ends⟩

theorem exists_of_after? {needle t rest : Text} (found : after? needle t = some rest) :
    ∃ before, t = before ++ (needle ++ rest) := by
  obtain ⟨⟨before, behind⟩, cut, same⟩ := Option.map_eq_some_iff.1 found
  obtain rfl : behind = rest := same
  exact ⟨before, by rw [eq_of_cutAt? cut, List.append_assoc]⟩

theorem has_iff {t needle : Text} : has t needle = true ↔ needle <:+: t := by
  have same : has t needle = (after? needle t).isSome := by rw [has, after?, Option.isSome_map]
  rw [same, Option.isSome_iff_exists]
  constructor
  · rintro ⟨rest, found⟩
    obtain ⟨before, whole⟩ := exists_of_after? found
    exact ⟨before, rest, by rw [whole, List.append_assoc]⟩
  · rintro ⟨before, rest, whole⟩
    obtain ⟨behind, found, -⟩ := after?_of_append needle before rest
    rw [← List.append_assoc, whole] at found
    exact ⟨behind, found⟩

/-! ## Words that a pattern needs -/

/-- Whatever is recognised opens with the word. -/
def Needs (recognise : Text → Option (α × Text)) (word : Text) : Prop :=
  ∀ ⦃t found⦄, recognise t = some found → word <+: t

/-- The word begins nowhere in a text, whatever follows the text. -/
def Avoids (word : Text) : Text → Prop
  | [] => True
  | c :: t => (∀ rest, ¬ word <+: c :: t ++ rest) ∧ Avoids word t

/-- A word does not go on beyond a sign that it does not have. -/
theorem prefix_of_append_cons {word s t : Text} {c : CodePoint} (other : c ∉ word)
    (opens : word <+: s ++ c :: t) : word <+: s := by
  obtain ⟨back, whole⟩ := opens
  rcases List.append_eq_append_iff.1 whole with ⟨more, same, -⟩ | ⟨more, same, behind⟩
  · exact ⟨more, same.symm⟩
  · cases more with
    | nil => exact ⟨[], by simp [same]⟩
    | cons d more => exact absurd (by simp [same, (List.cons.inj behind).1]) other

namespace Avoids
variable {word : Text}

theorem append {s t : Text} (first : Avoids word s) (second : Avoids word t) :
    Avoids word (s ++ t) := by
  induction s with
  | nil => exact second
  | cons c s ih =>
    obtain ⟨here, later⟩ := first
    refine ⟨fun rest => ?_, ih later⟩
    simpa using here (t ++ rest)

/-- Signs that the word does not have. -/
theorem of_others (some : word ≠ []) {t : Text} (others : ∀ c ∈ t, c ∉ word) : Avoids word t := by
  induction t with
  | nil => trivial
  | cons c t ih =>
    obtain ⟨other, later⟩ := List.forall_mem_cons.1 others
    refine ⟨fun rest opens => ?_, ih later⟩
    exact some (List.prefix_nil.1 (prefix_of_append_cons (s := []) other opens))

/-- A text without the word, up to a sign that the word does not have. -/
theorem closed {s : Text} (free : ¬ word <:+: s) {c : CodePoint} (other : c ∉ word) :
    Avoids word (s ++ [c]) := by
  have some : word ≠ [] := by
    rintro rfl
    exact free (List.nil_infix ..)
  induction s with
  | nil => exact of_others some (by simpa using other)
  | cons d s ih =>
    refine ⟨fun rest opens => ?_, ih fun inside => free (inside.trans (List.suffix_cons d s).isInfix)⟩
    have inside : word <+: (d :: s) ++ c :: rest := by simpa using opens
    exact free (prefix_of_append_cons other inside).isInfix

/-- A text without the word, a sign that the word does not have, and what follows. -/
theorem beyond {s t : Text} {c : CodePoint} (free : ¬ word <:+: s) (other : c ∉ word)
    (later : Avoids word t) : Avoids word (s ++ c :: t) := by
  have whole := (closed free other).append later
  rwa [List.append_assoc] at whole

/-- A text without the word, some signs that the word does not have, one more and what follows. -/
theorem spaced {s gap t : Text} {c : CodePoint} (free : ¬ word <:+: s)
    (others : ∀ d ∈ gap, d ∉ word) (other : c ∉ word) (later : Avoids word t) :
    Avoids word (s ++ (gap ++ c :: t)) := by
  cases gap with
  | nil => exact beyond free other later
  | cons d gap =>
    obtain ⟨first, more⟩ := List.forall_mem_cons.1 others
    have some : word ≠ [] := by
      rintro rfl
      exact free (List.nil_infix ..)
    have signs : Avoids word (gap ++ c :: t) :=
      (of_others some more).append (beyond (s := []) (by simpa using some) other later)
    exact beyond free first signs

/-- A pattern that needs the word begins nowhere in the text. -/
theorem barren {recognise : Text → Option (α × Text)} {t : Text} (avoids : Avoids word t)
    (needs : Needs recognise word) (rest : Text) : Barren (anywhere recognise) rest t := by
  induction t with
  | nil => trivial
  | cons c t ih =>
    obtain ⟨here, later⟩ := avoids
    refine ⟨fun _ => ?_, ih later⟩
    exact Option.eq_none_iff_forall_ne_some.2 fun found read => here rest (needs read)

end Avoids

/-! ## Pieces of patterns -/

/-- What follows some characters of a kind, when it opens with one of another kind. -/
theorem dropWhile_append_cons {p : CodePoint → Bool} {t : Text} (all : ∀ c ∈ t, p c = true)
    {c : CodePoint}
    (other : p c = false) (rest : Text) : (t ++ c :: rest).dropWhile p = c :: rest := by
  rw [List.dropWhile_append_of_pos all]
  simp [other]

theorem takeWhile_append_cons {p : CodePoint → Bool} {t : Text} (all : ∀ c ∈ t, p c = true)
    {c : CodePoint}
    (other : p c = false) (rest : Text) : (t ++ c :: rest).takeWhile p = t := by
  rw [List.takeWhile_append_of_pos all]
  simp [other]

/-- A text is cut at the first of some sign. -/
theorem cutAt?_singleton {c : CodePoint} {t : Text} (other : c ∉ t) (rest : Text) :
    cutAt? [c] (t ++ c :: rest) = some (t, rest) := by
  induction t with
  | nil => exact cutAt?_append [c] rest
  | cons d t ih =>
    obtain ⟨apart, later⟩ : c ≠ d ∧ c ∉ t := by simpa using other
    rw [List.cons_append, cutAt?, dropHead?, if_neg apart, ih later]
    rfl

theorem skipBlank_append {gap : Text} (blank : ∀ c ∈ gap, isBlank c = true) {c : CodePoint}
    (visible : isBlank c = false) (rest : Text) : skipBlank (gap ++ c :: rest) = c :: rest :=
  dropWhile_append_cons blank visible rest

theorem skipBlank?_append {gap : Text} (blank : ∀ c ∈ gap, isBlank c = true) (some : gap ≠ [])
    {c : CodePoint} (visible : isBlank c = false) (rest : Text) :
    skipBlank? (gap ++ c :: rest) = .some (c :: rest) := by
  cases gap with
  | nil => exact absurd rfl some
  | cons b gap =>
    obtain ⟨first, later⟩ := List.forall_mem_cons.1 blank
    rw [List.cons_append, skipBlank?, if_pos first, skipBlank_append later visible]

theorem isQuote_iff {c : CodePoint} : isQuote c = true ↔ c = '\'' ∨ c = '"' := by
  rw [isQuote, Bool.or_eq_true, beq_iff_eq, beq_iff_eq]

theorem isQuote_apostrophe : isQuote '\'' = true := by decide

theorem isQuote_quotationMark : isQuote '"' = true := by decide

theorem isBlank_of_isQuote {c : CodePoint} (quotes : isQuote c = true) : isBlank c = false := by
  rcases isQuote_iff.1 quotes with rfl | rfl <;> decide

/-- A literal without quotes inside is read up to its closing quote. -/
theorem fullLiteral?_append {opening closing : CodePoint} (opens : isQuote opening = true)
    (closes : isQuote closing = true) {t : Text} (some : t ≠ [])
    (plain : ∀ c ∈ t, isQuote c = false) (rest : Text) :
    fullLiteral? (opening :: (t ++ closing :: rest)) = .some (t, rest) := by
  have inside : ∀ c ∈ t, (!isQuote c) = true := fun c held => by rw [plain c held]; rfl
  have other : (!isQuote closing) = false := by rw [closes]; rfl
  have read : literal? (opening :: (t ++ closing :: rest)) = .some (t, rest) := by
    rw [literal?, if_pos opens, dropWhile_append_cons inside other,
      takeWhile_append_cons inside other]
  obtain ⟨c, u, rfl⟩ := List.exists_cons_of_ne_nil some
  rw [fullLiteral?, read]

/-- Blanks are no identifier characters. -/
theorem isIdentifier_of_isBlank {c : CodePoint} (blank : isBlank c = true) : isIdentifier c = false := by
  have each : ∀ n ∈ blankRanges.flatMap fun range => List.range' range.1 (range.2 + 1 - range.1),
      isIdentifier (CodePoint.ofNat n) = false := by decide +kernel
  have among : c.toNat ∈
      blankRanges.flatMap fun range => List.range' range.1 (range.2 + 1 - range.1) := by
    obtain ⟨range, listed, bounds⟩ := List.any_eq_true.1 blank
    simp only [Bool.and_eq_true, decide_eq_true_eq] at bounds
    refine List.mem_flatMap.2 ⟨range, listed, List.mem_range'_1.2 ⟨bounds.1, ?_⟩⟩
    omega
  have same := each c.toNat among
  rwa [CodePoint.ofNat_toNat] at same

end ModuleAtlas.Text
