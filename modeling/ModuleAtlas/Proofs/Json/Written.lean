import ModuleAtlas.Json.Reader
import ModuleAtlas.Proofs.Text.Digit
/-!
JSON texts as they are written: every blank, every spelling of a string, and perhaps commas behind
the last elements of arrays and the last members of objects. Without such commas (`Written.strict`)
the texts are those that the grammar of JSON admits for values whose numbers are integers.
-/
namespace ModuleAtlas.Json
open Number (digitLimit)

/-- Blanks between tokens. -/
abbrev Blank := { t : Text // ∀ c ∈ t, isSpace c }

/-- The blanks without any. -/
def Blank.none : Blank := ⟨[], by simp⟩

/-- Blanks and more of them. -/
def Blank.append (a b : Blank) : Blank :=
  ⟨a.1 ++ b.1, fun c inside => (List.mem_append.1 inside).elim (a.2 c) (b.2 c)⟩

/-- A unit of a string: the character itself, its letter behind a backslash, or its code. -/
inductive Piece
  | plain (c : CodePoint) (printable : 32 ≤ c.toNat) (noQuote : c ≠ '"') (noEscape : c ≠ '\\')
  | short (letter c : CodePoint) (known : shortEscape? letter = some c)
  | code (a b c d : CodePoint) (n : Nat) (digits : hex4? a b c d = some n)

namespace Piece

/-- What is written for the unit. -/
def text : Piece → Text
  | plain c .. => [c]
  | short letter .. => [.scalar '\\', letter]
  | code a b c d .. => [.scalar '\\', .scalar 'u', a, b, c, d]

/-- The unit. -/
def unit : Piece → StringUnit
  | plain c .. => .point c
  | short _ c _ => .point c
  | code _ _ _ _ n _ => .ofCode n

/-- What is written for several units. -/
def allText (pieces : List Piece) : Text := pieces.flatMap text

/-- The text that units stand for. -/
def body (pieces : List Piece) : Text := StringUnit.joined (pieces.map unit)

end Piece

/-- A key, and the blanks on both sides of the colon behind it. -/
structure Key where
  name : List Piece
  before : Blank
  after : Blank

mutual

/-- A value as it is written. -/
inductive Written
  | null
  | bool (b : Bool)
  | number (negative : Bool) (digits : Text) (numeral : Text.IsNumeral digits)
    (short : digits.length ≤ digitLimit)
  | string (pieces : List Piece)
  | array (blank : Blank) (elements : Elements)
  | object (blank : Blank) (members : Members)

/-- The elements of an array, with the blanks behind each of them and behind its comma. Elements
that go on with none end with a comma. -/
inductive Elements
  | none
  | last (x : Written) (behind : Blank)
  | more (x : Written) (behind next : Blank) (rest : Elements)

/-- The members of an object, likewise. -/
inductive Members
  | none
  | last (key : Key) (x : Written) (behind : Blank)
  | more (key : Key) (x : Written) (behind next : Blank) (rest : Members)

end

/-! ## Texts and values -/

/-- The text of a string with its quotes. -/
def Piece.quoted (pieces : List Piece) : Text := .scalar '"' :: (allText pieces ++ [.scalar '"'])

/-- The text of a number. -/
def numberText (negative : Bool) (digits : Text) : Text :=
  if negative then .scalar '-' :: digits else digits

/-- The text of a word for a truth value. -/
def boolText (b : Bool) : Text := if b then "true" else "false"

/-- A comma with the blanks on both sides of it. -/
def commaText (behind next : Blank) : Text := behind.1 ++ .scalar ',' :: next.1

/-- The text of a key up to its value. -/
def Key.text (key : Key) : Text := Piece.quoted key.name ++ key.before.1 ++ .scalar ':' :: key.after.1

mutual

/-- The text of a value. -/
def Written.text : Written → Text
  | .null => "null"
  | .bool b => boolText b
  | .number negative digits .. => numberText negative digits
  | .string pieces => Piece.quoted pieces
  | .array blank elements => .scalar '[' :: (blank.1 ++ (elements.text ++ [.scalar ']']))
  | .object blank members => .scalar '\x7b' :: (blank.1 ++ (members.text ++ [.scalar '\x7d']))

/-- The text of elements. -/
def Elements.text : Elements → Text
  | .none => []
  | .last x behind => x.text ++ behind.1
  | .more x behind next rest => x.text ++ (commaText behind next ++ rest.text)

/-- The text of members. -/
def Members.text : Members → Text
  | .none => []
  | .last key x behind => key.text ++ (x.text ++ behind.1)
  | .more key x behind next rest => key.text ++ (x.text ++ (commaText behind next ++ rest.text))

end

mutual

/-- The value that is written. -/
def Written.value : Written → Json
  | .null => .null
  | .bool b => .bool b
  | .number negative digits .. => .int (signedValue negative digits)
  | .string pieces => .string (Piece.body pieces)
  | .array _ elements => .array elements.values
  | .object _ members => .object (Table.ofList members.values).entries

/-- The values of elements. -/
def Elements.values : Elements → List Json
  | .none => []
  | .last x _ => [x.value]
  | .more x _ _ rest => x.value :: rest.values

/-- The keys and values of members, in the order in which they are written. -/
def Members.values : Members → List (Text × Json)
  | .none => []
  | .last key x _ => [(Piece.body key.name, x.value)]
  | .more key x _ _ rest => (Piece.body key.name, x.value) :: rest.values

end

/-! ## Trailing commas -/

/-- There are no elements. -/
def Elements.isNone : Elements → Bool
  | .none => true
  | _ => false

/-- There are no members. -/
def Members.isNone : Members → Bool
  | .none => true
  | _ => false

mutual

/-- Somewhere in the text a comma stands behind a last element or member. -/
def Written.trails : Written → Bool
  | .array _ elements => !elements.isNone && elements.trails
  | .object _ members => !members.isNone && members.trails
  | _ => false

/-- A comma in the elements, or in front of them if there are none, is a trailing one. -/
def Elements.trails : Elements → Bool
  | .none => true
  | .last x _ => x.trails
  | .more x _ _ rest => x.trails || rest.trails

/-- A comma in the members, or in front of them if there are none, is a trailing one. -/
def Members.trails : Members → Bool
  | .none => true
  | .last _ x _ => x.trails
  | .more _ x _ _ rest => x.trails || rest.trails

end

/-- An element in front of others, without its comma if there are none. -/
def Elements.strictly (x : Written) (behind next : Blank) : Elements → Elements
  | .none => .last x (behind.append next)
  | rest => .more x behind next rest

/-- A member in front of others, without its comma if there are none. -/
def Members.strictly (key : Key) (x : Written) (behind next : Blank) : Members → Members
  | .none => .last key x (behind.append next)
  | rest => .more key x behind next rest

mutual

/-- The value without trailing commas. -/
def Written.strict : Written → Written
  | .array blank elements => .array blank elements.strict
  | .object blank members => .object blank members.strict
  | x => x

/-- The elements without trailing commas. -/
def Elements.strict : Elements → Elements
  | .none => .none
  | .last x behind => .last x.strict behind
  | .more x behind next rest => .strictly x.strict behind next rest.strict

/-- The members without trailing commas. -/
def Members.strict : Members → Members
  | .none => .none
  | .last key x behind => .last key x.strict behind
  | .more key x behind next rest => .strictly key x.strict behind next rest.strict

end

@[simp] theorem Elements.isNone_none : Elements.isNone .none = true := rfl

@[simp] theorem Elements.isNone_last (x : Written) (behind : Blank) :
    (Elements.last x behind).isNone = false := rfl

@[simp] theorem Elements.isNone_more (x : Written) (behind next : Blank) (rest : Elements) :
    (Elements.more x behind next rest).isNone = false := rfl

theorem Elements.isNone_of_trails {xs : Elements} (strict : xs.trails = false) :
    xs.isNone = false := by
  cases xs with
  | none => exact absurd strict (by simp [trails])
  | last | more => rfl

theorem Elements.eq_none {xs : Elements} (none : xs.isNone = true) : xs = .none := by
  cases xs with
  | none => rfl
  | last | more => simp at none

@[simp] theorem Members.isNone_none : Members.isNone .none = true := rfl

@[simp] theorem Members.isNone_last (key : Key) (x : Written) (behind : Blank) :
    (Members.last key x behind).isNone = false := rfl

@[simp] theorem Members.isNone_more (key : Key) (x : Written) (behind next : Blank)
    (rest : Members) : (Members.more key x behind next rest).isNone = false := rfl

theorem Members.isNone_of_trails {ms : Members} (strict : ms.trails = false) :
    ms.isNone = false := by
  cases ms with
  | none => exact absurd strict (by simp [trails])
  | last | more => rfl

theorem Members.eq_none {ms : Members} (none : ms.isNone = true) : ms = .none := by
  cases ms with
  | none => rfl
  | last | more => simp at none

@[simp] theorem Elements.values_strictly (x : Written) (behind next : Blank) (rest : Elements) :
    (strictly x behind next rest).values = x.value :: rest.values := by
  cases rest <;> rfl

@[simp] theorem Members.values_strictly (key : Key) (x : Written) (behind next : Blank)
    (rest : Members) : (strictly key x behind next rest).values =
      (Piece.body key.name, x.value) :: rest.values := by
  cases rest <;> rfl

@[simp] theorem Elements.isNone_strict (xs : Elements) : xs.strict.isNone = xs.isNone := by
  cases xs with
  | none => rfl
  | last x behind => rfl
  | more x behind next rest =>
    rw [strict]
    cases rest.strict <;> rfl

@[simp] theorem Members.isNone_strict (ms : Members) : ms.strict.isNone = ms.isNone := by
  cases ms with
  | none => rfl
  | last key x behind => rfl
  | more key x behind next rest =>
    rw [strict]
    cases rest.strict <;> rfl

mutual

/-- A trailing comma does not change what is written. -/
theorem Written.value_strict (x : Written) : x.strict.value = x.value := by
  cases x with
  | null | bool | number | string => rfl
  | array blank xs => simp only [Written.strict, Written.value, xs.values_strict]
  | object blank ms => simp only [Written.strict, Written.value, ms.values_strict]

theorem Elements.values_strict (xs : Elements) : xs.strict.values = xs.values := by
  cases xs with
  | none => rfl
  | last x behind => simp only [Elements.strict, Elements.values, x.value_strict]
  | more x behind next rest =>
    simp only [Elements.strict, Elements.values_strictly, Elements.values, x.value_strict,
      rest.values_strict]

theorem Members.values_strict (ms : Members) : ms.strict.values = ms.values := by
  cases ms with
  | none => rfl
  | last key x behind => simp only [Members.strict, Members.values, x.value_strict]
  | more key x behind next rest =>
    simp only [Members.strict, Members.values_strictly, Members.values, x.value_strict,
      rest.values_strict]

end

theorem Elements.trails_strictly (x : Written) (behind next : Blank) (rest : Elements) :
    (strictly x behind next rest).trails = (x.trails || (!rest.isNone && rest.trails)) := by
  cases rest <;> simp [strictly, trails, isNone]

theorem Members.trails_strictly (key : Key) (x : Written) (behind next : Blank) (rest : Members) :
    (strictly key x behind next rest).trails = (x.trails || (!rest.isNone && rest.trails)) := by
  cases rest <;> simp [strictly, trails, isNone]

mutual

theorem Written.trails_strict (x : Written) : x.strict.trails = false := by
  cases x with
  | null | bool | number | string => rfl
  | array blank xs => simpa [Written.strict, Written.trails] using xs.trails_strict
  | object blank ms => simpa [Written.strict, Written.trails] using ms.trails_strict

theorem Elements.trails_strict (xs : Elements) :
    xs.isNone = false → xs.strict.trails = false := by
  cases xs with
  | none => simp [Elements.isNone]
  | last x behind => exact fun _ => x.trails_strict
  | more x behind next rest =>
    intro _
    simpa [Elements.strict, Elements.trails_strictly, x.trails_strict] using rest.trails_strict

theorem Members.trails_strict (ms : Members) :
    ms.isNone = false → ms.strict.trails = false := by
  cases ms with
  | none => simp [Members.isNone]
  | last key x behind => exact fun _ => x.trails_strict
  | more key x behind next rest =>
    intro _
    simpa [Members.strict, Members.trails_strictly, x.trails_strict] using rest.trails_strict

end

end ModuleAtlas.Json
