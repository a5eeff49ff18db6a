import ModuleAtlas.Proofs.Json.Written
/-!
The grammar of JSON with a gap at every place between two tokens. What a gap may hold is left open:
with spaces only the texts are the strict ones, and with other gaps they are what people make of
these. What a text means (`Term.value`), and the first integer in it that is too long to be read
(`Term.overlong?`), are said of its tokens alone (`Term.value_eq_of_bare`).
-/
namespace ModuleAtlas.Json
open Number (digitLimit IntegerFault)

/-! ## Numbers -/

/-- The text is decimal digits, at least one. -/
structure IsDigits (t : Text) : Prop where
  nonempty : t ≠ []
  digits : ∀ c ∈ t, c.isDigit

/-- The exponent of a number: its letter, perhaps a sign, and digits. -/
structure Exponent where
  letter : CodePoint
  sign : Option CodePoint
  digits : Text
  known : letter = 'e' ∨ letter = 'E'
  signed : ∀ c ∈ sign, c = '+' ∨ c = '-'
  decimal : IsDigits digits

/-- A number: perhaps a minus sign, a whole part without needless zeros in front, perhaps digits
behind a point, and perhaps an exponent. -/
structure Numeral where
  negative : Bool
  whole : Text
  part : Option Text
  power : Option Exponent
  numeral : Text.IsNumeral whole
  decimal : ∀ digits ∈ part, IsDigits digits

/-- The text of an exponent. -/
def Exponent.text (power : Exponent) : Text := power.letter :: (power.sign.toList ++ power.digits)

/-- The power of ten that an exponent stands for. -/
def Exponent.value (power : Exponent) : Int :=
  signedValue (power.sign == some (.scalar '-')) power.digits

namespace Numeral

/-- The text of the digits behind a point, with the point. -/
def partText (part : Option Text) : Text := part.elim [] (.scalar '.' :: ·)

/-- The text of an exponent that may be missing. -/
def powerText (power : Option Exponent) : Text := power.elim [] Exponent.text

/-- The text of a number. -/
def text (x : Numeral) : Text :=
  numberText x.negative (x.whole ++ (partText x.part ++ powerText x.power))

/-- The number without a point and an exponent is an integer, any other is a double. -/
def value (x : Numeral) : Json :=
  match x.part, x.power with
  | none, none => .int (signedValue x.negative x.whole)
  | part, power =>
    let digits := part.getD []
    .double (Double.ofDecimal x.negative (Number.decimalValue (x.whole ++ digits))
      ((power.map Exponent.value).getD 0 - digits.length))

/-- The number of digits of an integer that has too many to be read. -/
def overlong? (x : Numeral) : Option Nat :=
  if x.part = none ∧ x.power.isNone ∧ digitLimit < x.whole.length then some x.whole.length
  else none

end Numeral

/-! ## Texts -/

variable {G : Type}

/-- A key, and the gaps on both sides of the colon behind it. -/
structure Name (G : Type) where
  pieces : List Piece
  before : G
  after : G

mutual

/-- A value as the grammar has it. Behind an opening bracket or brace stands a gap. -/
inductive Term (G : Type)
  | null
  | bool (b : Bool)
  | number (x : Numeral)
  | string (pieces : List Piece)
  | emptyArray (gap : G)
  | array (gap : G) (items : Items G)
  | emptyObject (gap : G)
  | object (gap : G) (fields : Fields G)

/-- The elements of an array, at least one, with the gaps behind each of them and behind its
comma. -/
inductive Items (G : Type)
  | last (x : Term G) (behind : G)
  | more (x : Term G) (behind next : G) (rest : Items G)

/-- The members of an object, likewise. -/
inductive Fields (G : Type)
  | last (name : Name G) (x : Term G) (behind : G)
  | more (name : Name G) (x : Term G) (behind next : G) (rest : Fields G)

end

/-- A whole text: a value between gaps. -/
structure Document (G : Type) where
  before : G
  term : Term G
  after : G

/-- The value is an object. -/
def Term.isObject : Term G → Bool
  | .emptyObject _ | .object .. => true
  | _ => false

section
variable (write : G → Text)

/-- The text of a key up to its value. -/
def Name.text (name : Name G) : Text :=
  Piece.quoted name.pieces ++ (write name.before ++ .scalar ':' :: write name.after)

mutual

/-- The text of a value, with what is written for its gaps. -/
def Term.text : Term G → Text
  | .null => "null"
  | .bool b => boolText b
  | .number x => x.text
  | .string pieces => Piece.quoted pieces
  | .emptyArray gap => .scalar '[' :: (write gap ++ [.scalar ']'])
  | .array gap items => .scalar '[' :: (write gap ++ (items.text ++ [.scalar ']']))
  | .emptyObject gap => .scalar '\x7b' :: (write gap ++ [.scalar '\x7d'])
  | .object gap fields => .scalar '\x7b' :: (write gap ++ (fields.text ++ [.scalar '\x7d']))

/-- The text of elements. -/
def Items.text : Items G → Text
  | .last x behind => x.text ++ write behind
  | .more x behind next rest => x.text ++ (write behind ++ .scalar ',' :: (write next ++ rest.text))

/-- The text of members. -/
def Fields.text : Fields G → Text
  | .last name x behind => name.text write ++ (x.text ++ write behind)
  | .more name x behind next rest =>
    name.text write ++ (x.text ++ (write behind ++ .scalar ',' :: (write next ++ rest.text)))

end

/-- The whole text. -/
def Document.text (x : Document G) : Text := write x.before ++ (x.term.text write ++ write x.after)

end

/-! ## Meaning -/

mutual

/-- The value that is written. -/
def Term.value : Term G → Json
  | .null => .null
  | .bool b => .bool b
  | .number x => x.value
  | .string pieces => .string (Piece.body pieces)
  | .emptyArray _ => .array []
  | .array _ items => .array items.values
  | .emptyObject _ => .object []
  | .object _ fields => .object (Table.ofList fields.values).entries

/-- The values of elements. -/
def Items.values : Items G → List Json
  | .last x _ => [x.value]
  | .more x _ _ rest => x.value :: rest.values

/-- The keys and values of members, in the order in which they are written. -/
def Fields.values : Fields G → List (Text × Json)
  | .last name x _ => [(Piece.body name.pieces, x.value)]
  | .more name x _ _ rest => (Piece.body name.pieces, x.value) :: rest.values

end

mutual

/-- The number of digits of the first integer that has too many to be read. -/
def Term.overlong? : Term G → Option Nat
  | .number x => x.overlong?
  | .array _ items => items.overlong?
  | .object _ fields => fields.overlong?
  | _ => none

/-- The same for elements. -/
def Items.overlong? : Items G → Option Nat
  | .last x _ => x.overlong?
  | .more x _ _ rest => x.overlong?.or rest.overlong?

/-- The same for members. -/
def Fields.overlong? : Fields G → Option Nat
  | .last _ x _ => x.overlong?
  | .more _ x _ _ rest => x.overlong?.or rest.overlong?

end

/-- The outcome of reading something that is a value unless an integer in it is too long. -/
def outcome (overlong? : Option Nat) (x : Json) : Except IntegerFault Json :=
  match overlong? with
  | none => .ok x
  | some digits => .error (.tooLong digits)

/-- The reader computes a number from its pieces. -/
theorem Numeral.numberOf_eq (x : Numeral) :
    numberOf x.negative x.whole x.part (x.power.map Exponent.value) =
      outcome x.overlong? x.value := by
  obtain ⟨negative, whole, part, power, numeral, decimal⟩ := x
  cases part with
  | some digits => simp [numberOf, overlong?, outcome, value]
  | none =>
    cases power with
    | some power => simp [numberOf, overlong?, outcome, value]
    | none =>
      by_cases long : digitLimit < whole.length
      · simp [numberOf, overlong?, outcome, long]
      · simp [numberOf, overlong?, outcome, value, long]

/-! ## Tokens -/

/-- A key without its gaps. -/
def Name.bare (name : Name G) : Name Unit := ⟨name.pieces, (), ()⟩

mutual

/-- The tokens of a value: the value without its gaps. -/
def Term.bare : Term G → Term Unit
  | .null => .null
  | .bool b => .bool b
  | .number x => .number x
  | .string pieces => .string pieces
  | .emptyArray _ => .emptyArray ()
  | .array _ items => .array () items.bare
  | .emptyObject _ => .emptyObject ()
  | .object _ fields => .object () fields.bare

/-- The tokens of elements. -/
def Items.bare : Items G → Items Unit
  | .last x _ => .last x.bare ()
  | .more x _ _ rest => .more x.bare () () rest.bare

/-- The tokens of members. -/
def Fields.bare : Fields G → Fields Unit
  | .last name x _ => .last name.bare x.bare ()
  | .more name x _ _ rest => .more name.bare x.bare () () rest.bare

end

mutual

theorem Term.value_bare (x : Term G) : x.bare.value = x.value := by
  cases x with
  | null | bool | number | string | emptyArray | emptyObject => rfl
  | array gap items => simp only [Term.bare, Term.value, items.values_bare]
  | object gap fields => simp only [Term.bare, Term.value, fields.values_bare]

theorem Items.values_bare (xs : Items G) : xs.bare.values = xs.values := by
  cases xs with
  | last x behind => simp only [Items.bare, Items.values, x.value_bare]
  | more x behind next rest =>
    simp only [Items.bare, Items.values, x.value_bare, rest.values_bare]

theorem Fields.values_bare (ms : Fields G) : ms.bare.values = ms.values := by
  cases ms with
  | last name x behind => simp only [Fields.bare, Fields.values, Name.bare, x.value_bare]
  | more name x behind next rest =>
    simp only [Fields.bare, Fields.values, Name.bare, x.value_bare, rest.values_bare]

end

mutual

theorem Term.overlong?_bare (x : Term G) : x.bare.overlong? = x.overlong? := by
  cases x with
  | null | bool | number | string | emptyArray | emptyObject => rfl
  | array gap items => simp only [Term.bare, Term.overlong?, items.overlong?_bare]
  | object gap fields => simp only [Term.bare, Term.overlong?, fields.overlong?_bare]

theorem Items.overlong?_bare (xs : Items G) : xs.bare.overlong? = xs.overlong? := by
  cases xs with
  | last x behind => simp only [Items.bare, Items.overlong?, x.overlong?_bare]
  | more x behind next rest =>
    simp only [Items.bare, Items.overlong?, x.overlong?_bare, rest.overlong?_bare]

theorem Fields.overlong?_bare (ms : Fields G) : ms.bare.overlong? = ms.overlong? := by
  cases ms with
  | last name x behind => simp only [Fields.bare, Fields.overlong?, x.overlong?_bare]
  | more name x behind next rest =>
    simp only [Fields.bare, Fields.overlong?, x.overlong?_bare, rest.overlong?_bare]

end

theorem Term.isObject_bare (x : Term G) : x.bare.isObject = x.isObject := by
  cases x <;> rfl

/-- Values with the same tokens mean the same. -/
theorem Term.value_eq_of_bare {H : Type} {x : Term G} {y : Term H} (same : x.bare = y.bare) :
    x.value = y.value ∧ x.overlong? = y.overlong? ∧ x.isObject = y.isObject := by
  refine ⟨?_, ?_, ?_⟩
  · rw [← x.value_bare, same, y.value_bare]
  · rw [← x.overlong?_bare, same, y.overlong?_bare]
  · rw [← x.isObject_bare, same, y.isObject_bare]

/-! ## Ends of a text -/

/-- The text of an object stands in braces. -/
theorem Term.text_of_isObject {x : Term G} (object : x.isObject = true) (write : G → Text) :
    ∃ inside, x.text write = .scalar '\x7b' :: (inside ++ [.scalar '\x7d']) := by
  cases x with
  | emptyObject gap => exact ⟨write gap, rfl⟩
  | object gap fields => exact ⟨write gap ++ fields.text write, by simp [text]⟩
  | null | bool | number | string | emptyArray | array => cases object

theorem Term.value_of_isObject {x : Term G} (object : x.isObject = true) :
    ∃ members, x.value = .object members := by
  cases x with
  | emptyObject gap => exact ⟨[], rfl⟩
  | object gap fields => exact ⟨_, rfl⟩
  | null | bool | number | string | emptyArray | array => cases object

end ModuleAtlas.Json
