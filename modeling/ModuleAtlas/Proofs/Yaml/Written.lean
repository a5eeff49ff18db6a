import ModuleAtlas.Proofs.Yaml.Flow
/-!
The tokens of JSON texts (`ofText_text`). A text is tame if YAML makes of it what JSON does: blanks
between tokens are spaces and line feeds, a key stands on one line with its colon and not too far
from it, and strings are tame.
-/
namespace ModuleAtlas.Yaml
open Json (Piece Key Written Elements Members)

/-! ## Tame texts -/

/-- The key is one for YAML too. -/
structure IsTameKey (key : Key) : Prop where
  name : ∀ piece ∈ key.name, IsTamePiece piece
  before : ∀ c ∈ key.before.1, c = ' '
  near : (Piece.quoted key.name).length + key.before.1.length ≤ 1024
  after : IsGap key.after.1

mutual

/-- YAML makes of the value what JSON does. -/
def IsTame : Written → Prop
  | .null | .bool _ | .number .. => True
  | .string pieces => ∀ piece ∈ pieces, IsTamePiece piece
  | .array blank elements => IsGap blank.1 ∧ AreTame elements
  | .object blank members => IsGap blank.1 ∧ HasTame members

/-- The elements are tame. -/
def AreTame : Elements → Prop
  | .none => True
  | .last x behind => IsTame x ∧ IsGap behind.1
  | .more x behind next rest => IsTame x ∧ IsGap behind.1 ∧ IsGap next.1 ∧ AreTame rest

/-- The keys and values of the members are tame. -/
def HasTame : Members → Prop
  | .none => True
  | .last key x behind => IsTameKey key ∧ IsTame x ∧ IsGap behind.1
  | .more key x behind next rest =>
    IsTameKey key ∧ IsTame x ∧ IsGap behind.1 ∧ IsGap next.1 ∧ HasTame rest

end

instance (key : Key) : Decidable (IsTameKey key) :=
  have := List.decidableBAll IsTamePiece key.name
  have := List.decidableBAll (· = .scalar ' ') key.before.1
  decidable_of_iff
    ((∀ piece ∈ key.name, IsTamePiece piece) ∧ (∀ c ∈ key.before.1, c = ' ') ∧
      (Piece.quoted key.name).length + key.before.1.length ≤ 1024 ∧ IsGap key.after.1)
    ⟨fun ⟨name, before, near, after⟩ => ⟨name, before, near, after⟩,
      fun ⟨name, before, near, after⟩ => ⟨name, before, near, after⟩⟩

mutual

instance decidableIsTame : (x : Written) → Decidable (IsTame x)
  | .null | .bool _ | .number .. => .isTrue trivial
  | .string pieces => List.decidableBAll IsTamePiece pieces
  | .array blank xs =>
    have := decidableAreTame xs
    inferInstanceAs (Decidable (IsGap blank.1 ∧ AreTame xs))
  | .object blank ms =>
    have := decidableHasTame ms
    inferInstanceAs (Decidable (IsGap blank.1 ∧ HasTame ms))

instance decidableAreTame : (xs : Elements) → Decidable (AreTame xs)
  | .none => .isTrue trivial
  | .last x behind =>
    have := decidableIsTame x
    inferInstanceAs (Decidable (IsTame x ∧ IsGap behind.1))
  | .more x behind next rest =>
    have := decidableIsTame x
    have := decidableAreTame rest
    inferInstanceAs (Decidable (IsTame x ∧ IsGap behind.1 ∧ IsGap next.1 ∧ AreTame rest))

instance decidableHasTame : (ms : Members) → Decidable (HasTame ms)
  | .none => .isTrue trivial
  | .last key x behind =>
    have := decidableIsTame x
    inferInstanceAs (Decidable (IsTameKey key ∧ IsTame x ∧ IsGap behind.1))
  | .more key x behind next rest =>
    have := decidableIsTame x
    have := decidableHasTame rest
    inferInstanceAs
      (Decidable (IsTameKey key ∧ IsTame x ∧ IsGap behind.1 ∧ IsGap next.1 ∧ HasTame rest))

end

/-! ## Tokens -/

/-- The tokens of a key up to its value. -/
def keyTokens (key : Key) : List Token := [.key, .scalar (Piece.body key.name) false, .value]

mutual

/-- The tokens of a value. -/
def tokensOf : Written → List Token
  | .null => [.scalar "null" true]
  | .bool b => [.scalar (Json.boolText b) true]
  | .number negative digits .. => [.scalar (Json.numberText negative digits) true]
  | .string pieces => [.scalar (Piece.body pieces) false]
  | .array _ elements => .flowSequenceStart :: (elementTokens elements ++ [.flowSequenceEnd])
  | .object _ members => .flowMappingStart :: (memberTokens members ++ [.flowMappingEnd])

/-- The tokens of elements, and the commas between them or behind them. -/
def elementTokens : Elements → List Token
  | .none => []
  | .last x _ => tokensOf x
  | .more x _ _ rest => tokensOf x ++ .flowEntry :: elementTokens rest

/-- The tokens of members, and the commas between them or behind them. -/
def memberTokens : Members → List Token
  | .none => []
  | .last key x _ => keyTokens key ++ tokensOf x
  | .more key x _ _ rest => keyTokens key ++ (tokensOf x ++ .flowEntry :: memberTokens rest)

end

/-! ## Scanning -/

theorem endsPart_gap {blank : Text} (gap : IsGap blank) {c : CodePoint} (sign : IsEnd c) (t : Text) :
    EndsPart (blank ++ c :: t) :=
  ⟨blank, c, t, gap, sign, rfl⟩

section
variable {s : Scan} {depth : Nat} {tokens : List Token}

theorem IsGap.of_spaces {blank : Text} (spaces : ∀ c ∈ blank, c = ' ') : IsGap blank :=
  fun c among => .inl (spaces c among)

/-- A key and its colon where a key may begin. -/
theorem IsTameKey.passes {key : Key} (tame : IsTameKey key) (inside : Inside s (depth + 1) tokens)
    (may : s.mayBeKey = true) (p : Place) (rest : Text) :
    ∃ s', Inside s' (depth + 1) ((keyTokens key).reverse ++ tokens) ∧
      Passes s p key.text rest s' := by
  obtain ⟨named, insideName, start, name⟩ :=
    inside.quotes p ((key.before.1 ++ (.scalar ':' :: key.after.1)) ++ rest) tame.name
  have before := passes_gap (.of_spaces tame.before) insideName.inFlow
    (p.behind (Piece.quoted key.name)) ((.scalar ':' :: key.after.1) ++ rest)
  let q := (p.behind (Piece.quoted key.name)).behind key.before.1
  have near : Scan.isStale (q.spot ':') ⟨tokens.length, false, p.spot '"'⟩ = false := by
    have flat : ∀ c ∈ Piece.quoted key.name ++ key.before.1, isBreak c = false := by
      refine List.forall_mem_append.2 ⟨fun c among => ?_, fun c among => ?_⟩
      · exact isBreak_of_isInLine (isInLine_quoted tame.name c among)
      · rw [tame.before c among]
        decide
    have line : q.line = p.line := by
      rw [← p.line_behind flat, Place.behind_append]
    have index : q.index - p.index ≤ 1024 := by
      have far : q.index = p.index + _ := p.behind_append _ _ ▸ p.index_behind _
      have bound := tame.near
      rw [List.length_append] at far
      omega
    simp [Scan.isStale, Place.spot, line, index]
  obtain ⟨valued, insideValue, colon⟩ :=
    Inside.pairs q (key.after.1 ++ rest) insideName (start may) rfl near
  have after := passes_gap tame.after insideValue.inFlow (q.next ':') rest
  refine ⟨valued, by simpa [keyTokens] using insideValue, ?_⟩
  rw [Key.text, List.append_assoc]
  exact name.append (before.append (colon.cons after))

end

section
variable {s : Scan} {depth : Nat} {tokens : List Token}

theorem passes_number {negative : Bool} {digits : Text} (numeral : Text.IsNumeral digits)
    (inside : Inside s (depth + 1) tokens) (p : Place) {rest : Text} (ends : EndsPart rest) :
    ∃ s', Inside s' (depth + 1) (.scalar (Json.numberText negative digits) true :: tokens) ∧
      Passes s p (Json.numberText negative digits) rest s' := by
  have letters : ∀ c ∈ digits, isWord c = true := by
    intro c among
    simp [isWord, CodePoint.isAlphanum, numeral.digits c among]
  cases digits with
  | nil => exact absurd rfl numeral.nonempty
  | cons c digits =>
    have apart : c ≠ '-' := by
      rintro rfl
      exact absurd (numeral.digits '-' (by simp)) (by decide)
    cases negative with
    | false => exact inside.words p rest letters (fun sign => absurd sign apart) ends
    | true =>
      exact inside.words p rest (List.forall_mem_cons.2 ⟨by decide, letters⟩)
        (fun _ => ⟨c, digits, rfl, apart⟩) ends

theorem passes_comma (inside : Inside s (depth + 1) tokens) {behind next : Json.Blank}
    (gap : IsGap behind.1) (gap' : IsGap next.1) (p : Place) (rest : Text) :
    ∃ s', Inside s' (depth + 1) (.flowEntry :: tokens) ∧ s'.mayBeKey = true ∧
      Passes s p (Json.commaText behind next) rest s' := by
  have before := passes_gap gap inside.inFlow p ((.scalar ',' :: next.1) ++ rest)
  obtain ⟨s', inside', may, comma⟩ := inside.separates (p.behind behind.1) (next.1 ++ rest)
  have after := passes_gap gap' inside'.inFlow ((p.behind behind.1).next ',') rest
  exact ⟨s', inside', may, before.append (comma.cons after)⟩

theorem endsPart_comma {behind : Json.Blank} (gap : IsGap behind.1) (next : Json.Blank)
    (t rest : Text) : EndsPart ((Json.commaText behind next ++ t) ++ rest) := by
  rw [Json.commaText, List.append_assoc, List.append_assoc]
  exact endsPart_gap gap (.inl rfl) _

end

mutual

/-- The scanner finds the tokens of a tame value wherever it stands in a flow collection. -/
theorem passes_text (x : Written) (tame : IsTame x) {s : Scan} {depth : Nat} {tokens : List Token}
    (inside : Inside s (depth + 1) tokens) (p : Place) {rest : Text} (ends : EndsPart rest) :
    ∃ s', Inside s' (depth + 1) ((tokensOf x).reverse ++ tokens) ∧ Passes s p x.text rest s' := by
  cases x with
  | null =>
    exact inside.words p rest (List.all_eq_true.1 (by decide)) (fun sign => absurd sign (by decide)) ends
  | bool b =>
    have letters : ∀ c ∈ Json.boolText b, isWord c = true := by
      cases b <;> exact List.all_eq_true.1 (by decide)
    cases b <;> exact inside.words p rest letters (fun sign => absurd sign (by decide)) ends
  | number negative digits numeral short => exact passes_number numeral inside p ends
  | string pieces =>
    obtain ⟨s', inside', -, passes⟩ := inside.quotes p rest tame
    exact ⟨s', inside', passes⟩
  | array blank xs =>
    obtain ⟨opened, insideOpen, -, opening⟩ :=
      inside.opens p ((blank.1 ++ (xs.text ++ [.scalar ']'])) ++ rest) (.inl ⟨rfl, rfl⟩)
    have gap := passes_gap tame.1 insideOpen.inFlow (p.next '[')
        ((xs.text ++ [.scalar ']']) ++ rest)
    obtain ⟨filled, insideElements, elements⟩ :=
      passes_elements xs tame.2 insideOpen ((p.next '[').behind blank.1) rest
    obtain ⟨closed, insideClosed, closing⟩ :=
      insideElements.closes (((p.next '[').behind blank.1).behind xs.text) rest (.inl ⟨rfl, rfl⟩)
    exact ⟨closed, by simpa [tokensOf] using insideClosed,
      opening.cons (gap.append (elements.append closing))⟩
  | object blank ms =>
    obtain ⟨opened, insideOpen, may, opening⟩ :=
      inside.opens p ((blank.1 ++ (ms.text ++ [.scalar '\x7d'])) ++ rest) (.inr ⟨rfl, rfl⟩)
    have gap := passes_gap tame.1 insideOpen.inFlow (p.next '\x7b')
      ((ms.text ++ [.scalar '\x7d']) ++ rest)
    obtain ⟨filled, insideMembers, members⟩ :=
      passes_members ms tame.2 insideOpen may ((p.next '\x7b').behind blank.1) rest
    obtain ⟨closed, insideClosed, closing⟩ :=
      insideMembers.closes (((p.next '\x7b').behind blank.1).behind ms.text) rest (.inr ⟨rfl, rfl⟩)
    exact ⟨closed, by simpa [tokensOf] using insideClosed,
      opening.cons (gap.append (members.append closing))⟩

theorem passes_elements (xs : Elements) (tame : AreTame xs) {s : Scan} {depth : Nat}
    {tokens : List Token} (inside : Inside s (depth + 1) tokens) (p : Place) (rest : Text) :
    ∃ s', Inside s' (depth + 1) ((elementTokens xs).reverse ++ tokens) ∧
      Passes s p xs.text (.scalar ']' :: rest) s' := by
  cases xs with
  | none => exact ⟨s, inside, .nil s p _⟩
  | last x behind =>
    obtain ⟨here, gap⟩ := tame
    obtain ⟨s', inside', passes⟩ := passes_text x here inside p
      (endsPart_gap gap (.inr (.inl rfl)) rest)
    exact ⟨s', inside', passes.append (passes_gap gap inside'.inFlow _ _)⟩
  | more x behind next xs =>
    obtain ⟨here, gap, gap', later⟩ := tame
    obtain ⟨read, insideValue, value⟩ := passes_text x here inside p
      (endsPart_comma gap next xs.text (.scalar ']' :: rest))
    obtain ⟨parted, insideComma, -, comma⟩ :=
      passes_comma insideValue gap gap' (p.behind x.text) (xs.text ++ .scalar ']' :: rest)
    obtain ⟨filled, insideElements, elements⟩ := passes_elements xs later insideComma
      ((p.behind x.text).behind (Json.commaText behind next)) rest
    exact ⟨filled, by simpa [elementTokens] using insideElements,
      value.append (comma.append elements)⟩

theorem passes_members (ms : Members) (tame : HasTame ms) {s : Scan} {depth : Nat}
    {tokens : List Token} (inside : Inside s (depth + 1) tokens) (may : s.mayBeKey = true) (p : Place)
    (rest : Text) :
    ∃ s', Inside s' (depth + 1) ((memberTokens ms).reverse ++ tokens) ∧
      Passes s p ms.text (.scalar '\x7d' :: rest) s' := by
  cases ms with
  | none => exact ⟨s, inside, .nil s p _⟩
  | last key x behind =>
    obtain ⟨name, here, gap⟩ := tame
    obtain ⟨named, insideKey, key'⟩ :=
      name.passes inside may p ((x.text ++ behind.1) ++ .scalar '\x7d' :: rest)
    have ends : EndsPart (behind.1 ++ .scalar '\x7d' :: rest) := endsPart_gap gap (.inr (.inr rfl)) rest
    obtain ⟨read, insideValue, value⟩ := passes_text x here insideKey (p.behind key.text) ends
    have after := passes_gap gap insideValue.inFlow ((p.behind key.text).behind x.text)
        (.scalar '\x7d' :: rest)
    exact ⟨read, by simpa [memberTokens] using insideValue,
      key'.append (value.append after)⟩
  | more key x behind next ms =>
    obtain ⟨name, here, gap, gap', later⟩ := tame
    obtain ⟨named, insideKey, key'⟩ := name.passes inside may p
      ((x.text ++ (Json.commaText behind next ++ ms.text)) ++ .scalar '\x7d' :: rest)
    obtain ⟨read, insideValue, value⟩ := passes_text x here insideKey (p.behind key.text)
      (endsPart_comma gap next ms.text (.scalar '\x7d' :: rest))
    obtain ⟨parted, insideComma, may', comma⟩ := passes_comma insideValue gap gap'
      ((p.behind key.text).behind x.text) (ms.text ++ .scalar '\x7d' :: rest)
    obtain ⟨filled, insideMembers, members⟩ := passes_members ms later insideComma may'
      (((p.behind key.text).behind x.text).behind (Json.commaText behind next)) rest
    exact ⟨filled, by simpa [memberTokens] using insideMembers,
      key'.append (value.append (comma.append members))⟩

end

/-! ## Documents -/

theorem dropOrderMark_locate {c : CodePoint} (other : c ≠ '\uFEFF') (t : Text) :
    dropOrderMark (locate (c :: t)) = Place.spots ⟨0, 0, 0⟩ (c :: t) := by
  have begins : locate (c :: t) = Place.spots ⟨0, 0, 0⟩ (c :: t) := rfl
  rw [begins, dropOrderMark, if_neg (by simpa [nextIs] using other)]

/-- A document that opens with a bracket is inside a flow collection from there on. -/
theorem tokensFrom_start {c : CodePoint} {token : Token}
    (bracket : (c = '[' ∧ token = .flowSequenceStart) ∨ (c = '\x7b' ∧ token = .flowMappingStart))
    (p : Place) (t : Text) : ∃ s, Inside s 1 [token] ∧ s.mayBeKey = true ∧ ∀ fuel,
      tokensFrom (fuel + 1) Scan.start (p.spots (c :: t)) = tokensFrom fuel s ((p.next c).spots t) := by
  have apart : ((-1 : Int) == (p.column : Int)) = false := by
    rw [beq_eq_false_iff_ne]
    omega
  let opened : Scan := ⟨[token], -1, [], none, [some ⟨0, false, p.spot c⟩], true⟩
  refine ⟨opened, ⟨rfl, rfl, by simp [opened], rfl⟩, rfl, fun fuel => ?_⟩
  have visible : IsVisible c := by rcases bracket with ⟨rfl, -⟩ | ⟨rfl, -⟩ <;> decide
  have taken : tokenAt Scan.start (p.spot c) ((p.next c).spots t) =
      .ok (opened, (p.next c).spots t) := by
    rcases bracket with ⟨rfl, rfl⟩ | ⟨rfl, rfl⟩ <;>
      simp [tokenAt, isMark_of_ne, openFlow, Scan.markKey, Scan.dropKey, Scan.start, Scan.inFlow,
        Except.map, Scan.add, opened, apart]
  have fresh : Scan.start.dropStale (p.spot c) = .ok Scan.start := rfl
  have still : Scan.start.unwind p.column = Scan.start := rfl
  rw [tokensFrom, skipToToken_visible visible]
  simp [fresh, still, taken]

/-- Behind the bracket that closes the first one, a document that ends has its tokens. -/
theorem tokensFrom_end {s : Scan} {tokens : List Token} (inside : Inside s 0 tokens) (fuel : Nat) :
    tokensFrom (fuel + 1) s [] = tokens := by
  have still : s.unwind (-1) = s := by
    obtain ⟨ts, indent, indents, key, keys, may⟩ := s
    obtain rfl : keys = [] := List.length_eq_zero_iff.1 inside.depth
    obtain rfl : indents = [] := inside.flat
    rfl
  simp [tokensFrom, skipToToken, finish, still, inside.dropKey, inside.tokens]

/-- The tokens of a tame object are those of its parts. -/
theorem ofText_object {blank : Json.Blank} {ms : Members} (tame : IsTame (.object blank ms)) :
    Token.ofText (Written.object blank ms).text = tokensOf (.object blank ms) := by
  let p : Place := ⟨0, 0, 0⟩
  obtain ⟨opened, insideOpen, may, opening⟩ := tokensFrom_start (.inr ⟨rfl, rfl⟩) p
    (blank.1 ++ (ms.text ++ [.scalar '\x7d']))
  have gap := passes_gap tame.1 insideOpen.inFlow (p.next '\x7b')
      ((ms.text ++ [.scalar '\x7d']) ++ [])
  obtain ⟨filled, insideMembers, members⟩ :=
    passes_members ms tame.2 insideOpen may ((p.next '\x7b').behind blank.1) []
  obtain ⟨closed, insideClosed, closing⟩ :=
    insideMembers.closes (((p.next '\x7b').behind blank.1).behind ms.text) [] (.inr ⟨rfl, rfl⟩)
  obtain ⟨allowed, count, few, runs⟩ := gap.append (members.append closing)
  have all : (Written.object blank ms).text.all isAllowed = true := by
    rw [List.all_eq_true, Written.text]
    exact List.forall_mem_cons.2 ⟨by decide, allowed⟩
  -- Each token takes a character at least, so that one step is left to find the end.
  obtain ⟨fuel, enough⟩ : ∃ fuel, (Written.object blank ms).text.length = fuel + 1 + count := by
    refine ⟨(Written.object blank ms).text.length - 1 - count, ?_⟩
    rw [Written.text, List.length_cons]
    omega
  rw [List.append_nil] at runs
  rw [Token.ofText, if_pos all, enough, Written.text, dropOrderMark_locate (by decide), opening, runs,
    Place.spots_nil, tokensFrom_end insideClosed]
  simp [tokensOf]

end ModuleAtlas.Yaml
