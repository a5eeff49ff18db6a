import ModuleAtlas.Number.Double
import ModuleAtlas.Text.Case
import ModuleAtlas.Text.Class
import ModuleAtlas.Text.Encoding
/-!
Numbers written out by people: digits of any script, single underscores between digits, a
sign, blanks around. A decimal integer has at most 4300 digits.
-/
namespace ModuleAtlas.Number

/-- Why a text is no integer. -/
inductive IntegerFault
  | malformed
  | tooLong (digits : Nat)
deriving DecidableEq, Repr

/-- The most digits of a decimal integer. -/
def digitLimit : Nat := 4300

/-- What is said about a text that is no integer in a base; a long text is cut off. -/
def IntegerFault.message (base : Nat) (t : Text) : IntegerFault → Text
  | malformed =>
    "invalid literal for int() with base " ++ Text.ofNat base ++ ": " ++ (Text.quoted t).take 200
  | tooLong digits =>
    "Exceeds the limit (4300 digits) for integer string conversion: value has "
      ++ Text.ofNat digits ++ " digits; use sys.set_int_max_str_digits() to increase the limit"

/-- The character may stand around a number: a blank other than the information separators. -/
def surrounds (c : CodePoint) : Bool := Text.isBlank c && !(0x1c ≤ c.toNat && c.toNat ≤ 0x1f)

/-- The text without the blanks around a number. -/
def trim (t : Text) : Text := Text.trimWhile surrounds t

/-- The value of a character as a digit: a decimal digit of any script, or a letter. -/
def digitValue? (c : CodePoint) : Option Nat :=
  match Text.digit? c with
  | some n => some n
  | none => (Text.hexDigit? c).filter (10 ≤ ·)

/-- The value of a character as a digit of a base. -/
def digitIn? (base : Nat) (c : CodePoint) : Option Nat := (digitValue? c).filter (· < base)

/-- Digits read so far: their value, their number, and whether an underscore came last. -/
structure Digits where
  value : Nat
  count : Nat
  underscore : Bool

/-- Reads digits with single underscores between them, up to the first other character. Two
underscores in a row, or one at the end, are refused. -/
def readDigits (base : Nat) (read : Digits) : Text → Option (Nat × Nat × Text)
  | [] => if read.underscore then none else some (read.value, read.count, [])
  | c :: t =>
    match digitIn? base c with
    | some d => readDigits base ⟨read.value * base + d, read.count + 1, false⟩ t
    | none =>
      if c = '_' then
        if read.underscore then none else readDigits base ⟨read.value, read.count, true⟩ t
      else if read.underscore then none
      else some (read.value, read.count, c :: t)

/-- The letter that may announce a base after a zero. -/
def baseLetter? : Nat → Option (CodePoint × CodePoint)
  | 2 => some ('b', 'B')
  | 8 => some ('o', 'O')
  | 16 => some ('x', 'X')
  | _ => none

/-- The text without a zero and a letter that announce the base, and without the underscore
that may follow them. -/
def dropBase (base : Nat) (t : Text) : Text :=
  match baseLetter? base, t with
  | some (small, large), '0' :: c :: rest =>
    if c = small ∨ c = large then
      match rest with
      | '_' :: rest => rest
      | _ => rest
    else t
  | _, _ => t

/-- The sign in front of a text: whether it is a minus, and the rest. -/
def splitSign : Text → Bool × Text
  | '-' :: t => (true, t)
  | '+' :: t => (false, t)
  | t => (false, t)

/-- The integer that a text writes in a base. -/
def readInteger (base : Nat) (t : Text) : Except IntegerFault Int :=
  let (negative, t) := splitSign (trim t)
  let t := dropBase base t
  if t.head? == some (.scalar '_') then .error .malformed
  else match readDigits base ⟨0, 0, false⟩ t with
    | none => .error .malformed
    | some (value, count, rest) =>
      if count = 0 then .error .malformed
      else if baseLetter? base = none ∧ digitLimit < count then .error (.tooLong count)
      else if rest.isEmpty then .ok (if negative then -(value : Int) else value)
      else .error .malformed

/-- The value of a row of digits in base ten; other characters count as zero. -/
def decimalValue (digits : Text) : Nat :=
  digits.foldl (fun n c => n * 10 + (Text.digit? c).getD 0) 0

/-- The character is a decimal digit of some script. -/
def isDigit (c : CodePoint) : Bool := (Text.digit? c).isSome

/-- The exponent behind a mantissa: the letter, perhaps a sign, and digits to the end of the
text. No text is the exponent zero. -/
def exponent? : Text → Option Int
  | [] => some 0
  | c :: t =>
    let (negative, digits) := splitSign t
    if (c = 'e' ∨ c = 'E') ∧ !digits.isEmpty ∧ digits.all isDigit then
      some (if negative then -(decimalValue digits : Int) else decimalValue digits)
    else none

/-- The number that a decimal without underscores writes, perhaps with a point and an exponent,
or one of the words for infinity and for what is not a number. -/
def readDouble? (t : Text) : Option Double :=
  let (negative, t) := splitSign (trim t)
  let word := Text.lower t
  if word = "inf" ∨ word = "infinity" then some (.infinite negative)
  else if word = "nan" then some .nan
  else
    let whole := t.takeWhile isDigit
    let rest := t.dropWhile isDigit
    let (part, rest) := match rest with
      | '.' :: rest => (rest.takeWhile isDigit, rest.dropWhile isDigit)
      | _ => ([], rest)
    if whole.isEmpty && part.isEmpty then none
    else (exponent? rest).map fun exponent =>
      Double.ofDecimal negative (decimalValue (whole ++ part)) (exponent - part.length)

end ModuleAtlas.Number
