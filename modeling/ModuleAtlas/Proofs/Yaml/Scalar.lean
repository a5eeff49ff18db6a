import ModuleAtlas.Proofs.Json.Reader
import ModuleAtlas.Proofs.Json.Written
import ModuleAtlas.Yaml.Scalar
import Mathlib
/-!
Scalars of JSON as YAML reads them. A plain scalar is a word up to the blanks behind it
(`plainFrom_word`). A string in quotes is read as in JSON (`quoted_pieces`) if each of its characters
may stand in a YAML document and ends no line (`Piece.IsTame`).
-/
namespace ModuleAtlas.Yaml
open Json (Piece)

/-! ## Places -/

/-- A place in a document: the characters before it, the lines, and the columns of its line. -/
structure Place where
  index : Nat
  line : Nat
  column : Nat

namespace Place

/-- The place behind a character. -/
def next (p : Place) (c : CodePoint) : Place :=
  if isBreak c then ⟨p.index + 1, p.line + 1, 0⟩
  else ⟨p.index + 1, p.line, if c == '\uFEFF' then p.column else p.column + 1⟩

/-- The place behind a text. -/
def behind (p : Place) (t : Text) : Place := t.foldl next p

/-- A character at the place. -/
def spot (p : Place) (c : CodePoint) : Spot := ⟨c, p.index, p.line, p.column⟩

/-- The characters of a text from the place on. -/
def spots (p : Place) (t : Text) : Spots := locateFrom p.index p.line p.column t

@[simp] theorem spots_nil (p : Place) : p.spots [] = [] := rfl

@[simp] theorem spots_cons (p : Place) (c : CodePoint) (t : Text) :
    p.spots (c :: t) = p.spot c :: (p.next c).spots t := by
  rw [spots, locateFrom, next]
  split <;> rfl

@[simp] theorem behind_nil (p : Place) : p.behind [] = p := rfl

@[simp] theorem behind_cons (p : Place) (c : CodePoint) (t : Text) :
    p.behind (c :: t) = (p.next c).behind t := rfl

theorem behind_append (p : Place) (s t : Text) : p.behind (s ++ t) = (p.behind s).behind t :=
  List.foldl_append

@[simp] theorem char_spot (p : Place) (c : CodePoint) : (p.spot c).char = c := rfl

@[simp] theorem column_spot (p : Place) (c : CodePoint) : (p.spot c).column = p.column := rfl

theorem index_behind (p : Place) (t : Text) : (p.behind t).index = p.index + t.length := by
  induction t generalizing p with
  | nil => rfl
  | cons c t ih =>
    have step : (p.next c).index = p.index + 1 := by
      rw [next]
      split <;> rfl
    rw [behind_cons, ih, step, List.length_cons]
    omega

/-- Without line ends there is one line. -/
theorem line_behind (p : Place) {t : Text} (flat : ∀ c ∈ t, isBreak c = false) :
    (p.behind t).line = p.line := by
  induction t generalizing p with
  | nil => rfl
  | cons c t ih =>
    rw [behind_cons, ih (p.next c) fun d inside => flat d (by simp [inside]), next, flat c (by simp)]
    rfl

end Place

@[simp] theorem textOf_spots (p : Place) (t : Text) : textOf (p.spots t) = t := by
  induction t generalizing p with
  | nil => rfl
  | cons c t ih => rw [Place.spots_cons, textOf, List.map_cons, ← textOf, ih]; rfl

@[simp] theorem peek_cons (x : Spot) (s : Spots) : peek (x :: s) = some x.char := rfl

/-- Only three hyphens or points separate documents. -/
theorem isMark_of_ne {c d : CodePoint} (apart : d ≠ c) (p : Place) (t : Spots) :
    isMark c (p.spot d :: t) = false := by
  simp [isMark, textOf, apart]

/-! ## Plain scalars -/

/-- A blank between the tokens of a flow collection, where tabs are none. -/
def IsGap (blank : Text) : Prop := ∀ c ∈ blank, c = ' ' ∨ c = '\n'

instance (blank : Text) : Decidable (IsGap blank) :=
  inferInstanceAs (Decidable (∀ c ∈ blank, _))

/-- The sign ends a part of a flow collection. -/
def IsEnd (c : CodePoint) : Prop := c = ',' ∨ c = ']' ∨ c = '\x7d'

/-- Behind blanks follows what ends a part of a flow collection. -/
def EndsPart (rest : Text) : Prop :=
  ∃ blank c t, IsGap blank ∧ IsEnd c ∧ rest = blank ++ c :: t

/-- The character may stand in a word or a number. -/
def isWord (c : CodePoint) : Bool := c.isAlphanum || c == '-'

theorem ne_of_isWord {c d : CodePoint} (letter : isWord c = true) (other : isWord d = false) :
    c ≠ d := by
  rintro rfl
  rw [letter] at other
  cases other

/-- The character may stand in a line of a YAML document. -/
def isInLine (c : CodePoint) : Bool := isAllowed c && !isBreak c

theorem isInLine_of_le {c : CodePoint} (above : 32 ≤ c.toNat) (below : c.toNat ≤ 126) :
    isInLine c = true := by
  have inside : (decide (' ' ≤ c) && decide (c ≤ '~')) = true := by
    simp only [Bool.and_eq_true, decide_eq_true_eq]
    exact ⟨above, below⟩
  have apart : ∀ d : CodePoint, d.toNat < 32 ∨ 126 < d.toNat → c ≠ d := by
    rintro d outside rfl
    omega
  simp [isInLine, isAllowed, inside, isBreak, apart '\n' (by decide), apart '\x85' (by decide),
    apart '\u2028' (by decide), apart '\u2029' (by decide)]

theorem isInLine_word {c : CodePoint} (letter : isWord c = true) : isInLine c = true := by
  have bounds : 32 ≤ c.toNat ∧ c.toNat ≤ 126 := by
    simp [isWord, CodePoint.isAlphanum, CodePoint.isDigit] at letter
    rcases letter with ((upper | lower) | digit) | rfl
    · omega
    · omega
    · omega
    · decide
  exact isInLine_of_le bounds.1 bounds.2

theorem endsToken_word {c : CodePoint} (letter : isWord c = true) : endsToken (some c) = false := by
  have apart : ∀ d : CodePoint, isWord d = false → c ≠ d := fun d => ne_of_isWord letter
  simp [endsToken, isBreak, apart ' ' (by decide), apart '\t' (by decide), apart '\n' (by decide),
    apart '\x85' (by decide), apart '\u2028' (by decide), apart '\u2029' (by decide)]

theorem stopsPlain_word {c : CodePoint} (letter : isWord c = true) (next : Option CodePoint) :
    stopsPlain true c next = false := by
  have apart : ∀ d : CodePoint, isWord d = false → c ≠ d := fun d => ne_of_isWord letter
  simp [stopsPlain, endsToken_word letter, apart ':' (by decide), apart ',' (by decide),
    apart '?' (by decide), apart '[' (by decide), apart ']' (by decide), apart '\x7b' (by decide),
    apart '\x7d' (by decide)]

theorem isSeparator_of_endsPart {rest : Text} (ends : EndsPart rest) (p : Place) :
    isSeparator (p.spots rest) = false := by
  obtain ⟨blank, c, t, gap, sign, rfl⟩ := ends
  have first : ∃ d s, blank ++ c :: t = d :: s ∧ (IsEnd d ∨ d = ' ' ∨ d = '\n') := by
    cases blank with
    | nil => exact ⟨c, t, rfl, .inl sign⟩
    | cons d blank => exact ⟨d, _, rfl, .inr (gap d (by simp))⟩
  obtain ⟨d, s, same, kind⟩ := first
  have apart : d ≠ '-' ∧ d ≠ '.' := by
    rcases kind with (rfl | rfl | rfl) | rfl | rfl <;> decide
  rw [same, Place.spots_cons, isSeparator, isMark_of_ne apart.1, isMark_of_ne apart.2]
  rfl

/-- The blanks behind a word belong to the plain scalar, but not to its text. -/
theorem plainFrom_gap {blank : Text} (gap : IsGap blank) {c : CodePoint} (sign : IsEnd c)
    (t : Text) (indent : Int) (before : Gap) (p : Place) :
    ∃ crossed, plainFrom true indent (some before) (p.spots (blank ++ c :: t)) =
      ⟨[], crossed, (p.behind blank).spots (c :: t)⟩ := by
  induction blank generalizing before p with
  | nil =>
    refine ⟨before.first.isSome, ?_⟩
    rcases sign with rfl | rfl | rfl <;> simp [plainFrom, isBreak, stopsPlain]
  | cons d blank ih =>
    have later : IsGap blank := fun e inside => gap e (by simp [inside])
    have apart := isSeparator_of_endsPart ⟨blank, c, t, later, sign, rfl⟩
    rcases gap d (by simp) with rfl | rfl
    · obtain ⟨crossed, read⟩ := ih later { before with spaces := before.spaces + 1 } (p.next ' ')
      exact ⟨crossed, by simpa [plainFrom] using read⟩
    · obtain ⟨crossed, read⟩ := ih later (before.break '\n') (p.next '\n')
      exact ⟨crossed, by simpa [plainFrom, isBreak, apart] using read⟩

/-- A word is read as a plain scalar, up to the sign that ends its part of a flow collection. -/
theorem plainFrom_word {word : Text} (letters : ∀ c ∈ word, isWord c) {blank : Text}
    (gap : IsGap blank) {c : CodePoint} (sign : IsEnd c) (t : Text) (indent : Int)
    (p : Place) :
    ∃ crossed, plainFrom true indent none (p.spots (word ++ (blank ++ c :: t))) =
      ⟨word, crossed, ((p.behind word).behind blank).spots (c :: t)⟩ := by
  induction word generalizing p with
  | nil =>
    cases blank with
    | nil =>
      refine ⟨false, ?_⟩
      rcases sign with rfl | rfl | rfl <;> simp [plainFrom, isBreak, stopsPlain, endsToken]
    | cons d blank =>
      have later : IsGap blank := fun e inside => gap e (by simp [inside])
      have apart := isSeparator_of_endsPart ⟨blank, c, t, later, sign, rfl⟩
      rcases gap d (by simp) with rfl | rfl
      · obtain ⟨crossed, read⟩ := plainFrom_gap later sign t indent ⟨1, none, []⟩ (p.next ' ')
        exact ⟨crossed, by simpa [plainFrom, stopsPlain, endsToken] using read⟩
      · obtain ⟨crossed, read⟩ :=
          plainFrom_gap later sign t indent ⟨0, some (breakText '\n'), []⟩ (p.next '\n')
        exact ⟨crossed, by simpa [plainFrom, stopsPlain, endsToken, isBreak, apart] using read⟩
  | cons d word ih =>
    obtain ⟨crossed, read⟩ := ih (fun e inside => letters e (by simp [inside])) (p.next d)
    have letter := stopsPlain_word (letters d (by simp))
    refine ⟨crossed, ?_⟩
    rw [List.cons_append, Place.spots_cons, plainFrom, Place.char_spot, letter, read]
    rfl

/-! ## Strings -/

/-- The unit means the same in YAML: a character that may stand in a YAML document and ends no line,
or the code of a character, since halves of a pair need not be joined there. -/
def IsTamePiece : Piece → Prop
  | .plain c .. => isInLine c = true
  | .short .. => True
  | .code _ _ _ _ n _ => (CodePoint.ofNat n).isSurrogate = false

instance : (piece : Piece) → Decidable (IsTamePiece piece)
  | .plain c .. => inferInstanceAs (Decidable (isInLine c = true))
  | .short .. => .isTrue trivial
  | .code .. => inferInstanceAs (Decidable (_ = false))

/-- The letter of a short escape of JSON is one of these. -/
theorem mem_of_shortEscape? {letter c : CodePoint} (known : Json.shortEscape? letter = some c) :
    letter ∈ (['"', '\\', '/', 'b', 'f', 'n', 'r', 't'] : Text) := by
  unfold Json.shortEscape? at known
  split at known
  · rename_i itself
    rcases itself with rfl | rfl | rfl <;> decide
  · repeat' split at known
    all_goals simp_all

theorem isInLine_hexDigit {c : CodePoint} {n : Nat} (digit : Text.hexDigit? c = some n) :
    isInLine c = true := by
  unfold Text.hexDigit? at digit
  split at digit
  · rename_i bounds
    exact isInLine_of_le (Nat.le_trans (by decide) bounds.1) (Nat.le_trans bounds.2 (by decide))
  split at digit
  · rename_i bounds
    exact isInLine_of_le (Nat.le_trans (by decide) bounds.1) (Nat.le_trans bounds.2 (by decide))
  split at digit
  · rename_i bounds
    exact isInLine_of_le (Nat.le_trans (by decide) bounds.1) (Nat.le_trans bounds.2 (by decide))
  · cases digit

theorem isInLine_piece {piece : Piece} (tame : IsTamePiece piece) :
    ∀ c ∈ piece.text, isInLine c = true := by
  cases piece with
  | plain c =>
    rw [Piece.text, List.forall_mem_singleton]
    exact tame
  | short letter c known =>
    have all : ∀ d ∈ (['"', '\\', '/', 'b', 'f', 'n', 'r', 't'] : Text), isInLine d = true :=
      List.all_eq_true.1 (by decide)
    simp only [Piece.text, List.forall_mem_cons]
    exact ⟨by decide, all letter (mem_of_shortEscape? known), by simp⟩
  | code a b c d n digits =>
    intro e among
    rw [Piece.text, List.mem_cons, List.mem_cons] at among
    rcases among with rfl | rfl | among
    · decide
    · decide
    · obtain ⟨m, digit⟩ := Json.hexDigit?_of_hex4? digits e among
      exact isInLine_hexDigit digit

/-- A tame string stands in one line. -/
theorem isInLine_quoted {pieces : List Piece} (tame : ∀ piece ∈ pieces, IsTamePiece piece) :
    ∀ c ∈ Piece.quoted pieces, isInLine c = true := by
  simp only [Piece.quoted, Piece.allText, List.forall_mem_cons, List.forall_mem_append]
  refine ⟨by decide, fun c among => ?_, by decide, by simp⟩
  obtain ⟨piece, inside, here⟩ := List.mem_flatMap.1 among
  exact isInLine_piece (tame piece inside) c here

theorem isAllowed_of_isInLine {c : CodePoint} (here : isInLine c = true) : isAllowed c = true :=
  (Bool.and_eq_true_iff.1 here).1

theorem isBreak_of_isInLine {c : CodePoint} (here : isInLine c = true) : isBreak c = false := by
  simpa using (Bool.and_eq_true_iff.1 here).2

/-- The reader is in the text of a scalar, perhaps behind blanks. -/
def Quoting.IsInside : Quoting → Prop
  | .text | .blanks _ => True
  | _ => False

section
variable {place : Quoting} (inside : place.IsInside) (p : Place) (t : Text)
include inside

theorem quotedFrom_close : quotedFrom true place (p.spots (.scalar '"' :: t)) =
    .ok (place.gap, (p.next '"').spots t) := by
  cases place with
  | text | blanks => simp [quotedFrom, isBreak]
  | second | breaks | escape | code => exact absurd inside (by simp [Quoting.IsInside])

theorem quotedFrom_escape : quotedFrom true place (p.spots (.scalar '\\' :: t)) =
    inFront (place.gap) (quotedFrom true .escape ((p.next '\\').spots t)) := by
  cases place with
  | text | blanks => simp [quotedFrom, isBreak]
  | second | breaks | escape | code => exact absurd inside (by simp [Quoting.IsInside])

theorem quotedFrom_space : ∃ later : Quoting, later.IsInside ∧
    later.gap = place.gap ++ [.scalar ' '] ∧
    quotedFrom true place (p.spots (.scalar ' ' :: t)) =
      quotedFrom true later ((p.next ' ').spots t) := by
  cases place with
  | text => exact ⟨.blanks [' '], trivial, rfl, by simp [quotedFrom, Quoting.blank]⟩
  | blanks gap =>
    exact ⟨.blanks (gap ++ [.scalar ' ']), trivial, rfl, by simp [quotedFrom, Quoting.blank]⟩
  | second | breaks | escape | code => exact absurd inside (by simp [Quoting.IsInside])

theorem quotedFrom_plain {c : CodePoint} (blank : c ≠ ' ' ∧ c ≠ '\t') (flat : isBreak c = false)
    (noQuote : c ≠ '"') (noEscape : c ≠ '\\') : quotedFrom true place (p.spots (c :: t)) =
      inFront (place.gap ++ [c])
        (quotedFrom true .text ((p.next c).spots t)) := by
  cases place with
  | text | blanks => simp [quotedFrom, blank, flat, noQuote, noEscape]
  | second | breaks | escape | code => exact absurd inside (by simp [Quoting.IsInside])

end

/-- The short escapes of JSON are escapes of YAML. -/
theorem escaped?_of_shortEscape? {letter c : CodePoint} (known : Json.shortEscape? letter = some c) :
    escaped? letter = some c.toNat := by
  unfold Json.shortEscape? at known
  split at known
  · rename_i itself
    cases known
    rcases itself with rfl | rfl | rfl <;> rfl
  · repeat' split at known
    all_goals
      subst_vars
      cases known
      try rfl

theorem quotedFrom_short {letter c : CodePoint} (known : Json.shortEscape? letter = some c) (p : Place)
    (t : Text) : quotedFrom true .escape (p.spots (letter :: t)) =
      inFront [c] (quotedFrom true .text ((p.next letter).spots t)) := by
  simp [quotedFrom, escaped?_of_shortEscape? known]

theorem quotedFrom_code {a b c d : CodePoint} {n : Nat} (digits : Json.hex4? a b c d = some n)
    (p : Place)
    (t : Text) : quotedFrom true .escape (p.spots (.scalar 'u' :: a :: b :: c :: d :: t)) =
      inFront [.ofNat n] (quotedFrom true .text ((p.behind [.scalar 'u', a, b, c, d]).spots t)) := by
  simp only [Json.hex4?, Option.bind_eq_some_iff, Option.map_eq_some_iff] at digits
  obtain ⟨i, first, j, second, k, third, l, last, rfl⟩ := digits
  have small : ((i * 16 + j) * 16 + k) * 16 + l < 0x110000 := by
    have := Text.hexDigit?_lt first
    have := Text.hexDigit?_lt second
    have := Text.hexDigit?_lt third
    have := Text.hexDigit?_lt last
    omega
  simp [quotedFrom, escaped?, codeDigits?, first, second, third, last, codePoint, small]

/-- The code point that a unit is in YAML. -/
def meaning : Piece → CodePoint
  | .plain c .. => c
  | .short _ c _ => c
  | .code _ _ _ _ n _ => .ofNat n

/-- Tame units are code points of the text they stand for. -/
theorem body_of_tame {pieces : List Piece} (tame : ∀ piece ∈ pieces, IsTamePiece piece) :
    Piece.body pieces = pieces.map meaning := by
  have unit (piece : Piece) (here : IsTamePiece piece) : piece.unit = .point (meaning piece) := by
    cases piece with
    | plain | short => rfl
    | code a b c d n digits =>
      have scalar : (CodePoint.ofNat n).isSurrogate = false := here
      rw [Piece.unit, Json.StringUnit.ofCode, meaning]
      cases same : CodePoint.ofNat n with
      | scalar c => rfl
      | surrogate index =>
        rw [same] at scalar
        cases scalar
  induction pieces with
  | nil => rfl
  | cons piece pieces ih =>
    obtain ⟨here, others⟩ := List.forall_mem_cons.1 tame
    rw [Piece.body, List.map_cons, unit piece here, Json.StringUnit.joined, ← Piece.body, ih others,
      List.map_cons]

theorem quotedFrom_pieces {pieces : List Piece} (tame : ∀ piece ∈ pieces, IsTamePiece piece)
    {place : Quoting} (inside : place.IsInside) (p : Place) (rest : Text) :
    quotedFrom true place (p.spots (Piece.allText pieces ++ .scalar '"' :: rest)) =
      .ok (place.gap ++ pieces.map meaning,
        (p.behind (Piece.allText pieces ++ [.scalar '"'])).spots rest) := by
  induction pieces generalizing place p with
  | nil => simpa [Piece.allText] using quotedFrom_close inside p rest
  | cons piece pieces ih =>
    have text : Quoting.IsInside .text := trivial
    have later := fun place inside p =>
      @ih (fun piece inside => tame piece (by simp [inside])) place inside p
    have here := tame piece (by simp)
    rw [Piece.allText, List.flatMap_cons, ← Piece.allText, List.append_assoc]
    cases piece with
    | plain c printable noQuote noEscape =>
      by_cases blank : c = ' '
      · subst blank
        obtain ⟨next, within, gap, read⟩ := quotedFrom_space inside p
            (Piece.allText pieces ++ .scalar '"' :: rest)
        rw [Piece.text, List.singleton_append, read, later next within, gap]
        simp [meaning]
      · have noTab : c ≠ '\t' := by
          rintro rfl
          exact absurd printable (by decide)
        rw [Piece.text, List.singleton_append,
          quotedFrom_plain inside p _ ⟨blank, noTab⟩ (isBreak_of_isInLine here) noQuote noEscape,
          later _ text]
        simp [inFront, Except.map, Quoting.gap, meaning]
    | short letter c known =>
      rw [Piece.text, List.cons_append, List.singleton_append, quotedFrom_escape inside,
        quotedFrom_short known, later _ text]
      simp [inFront, Except.map, Quoting.gap, meaning]
    | code a b c d n digits =>
      rw [Piece.text, List.cons_append, quotedFrom_escape inside]
      simp only [List.cons_append, List.nil_append]
      rw [quotedFrom_code digits, later _ text]
      simp [inFront, Except.map, Quoting.gap, meaning]

/-- A string of JSON is read as in JSON. -/
theorem quoted_pieces {pieces : List Piece} (tame : ∀ piece ∈ pieces, IsTamePiece piece) (p : Place)
    (rest : Text) : quoted true (p.spots (Piece.allText pieces ++ .scalar '"' :: rest)) =
      .ok (Piece.body pieces, (p.behind (Piece.allText pieces ++ [.scalar '"'])).spots rest) := by
  have inside : Quoting.IsInside .text := trivial
  rw [quoted, quotedFrom_pieces tame inside, body_of_tame tame]
  rfl

end ModuleAtlas.Yaml
