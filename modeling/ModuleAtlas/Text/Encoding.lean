import ModuleAtlas.Text.Class
/-!
Texts as bytes and in other characters: as bytes in UTF-8, in quotes, and bytes as texts in base 64.
-/
namespace ModuleAtlas.Text

/-! ## Bytes

Ill-formed bytes are either refused (`decode?`) or read as one replacement character for each maximal
beginning of a well-formed sequence (`decodeReplacing`). Reading a file also turns every kind of line
end into a line feed (`unifyNewlines`). -/

/-- The bytes of a code point. A surrogate has none, unless it stands for a byte of a file name
that is not well-formed. -/
def bytesOf : CodePoint → List UInt8
  | .scalar c => String.utf8EncodeChar c
  | .surrogate index =>
    if 0x480 ≤ index.val ∧ index.val < 0x500 then [.ofNat (index.val - 0x400)] else []

/-- The bytes of a text. -/
def utf8 (t : Text) : List UInt8 := t.flatMap bytesOf

/-- The bytes in which a text is written to a file, which cannot hold any surrogate. -/
def utf8? (t : Text) : Option (List UInt8) := if t.IsScalar then some (utf8 t) else none

/-- A file name can have the code point: it has bytes. -/
def isEncodable (c : CodePoint) : Bool := !(bytesOf c).isEmpty

/-- The code point may stand in a path: it has bytes, and none of them is zero. -/
def isLegal (c : CodePoint) : Bool := isEncodable c && c != '\x00'

/-- The text can be a path. -/
def IsLegal (t : Text) : Prop := ∀ c ∈ t, isLegal c

instance (t : Text) : Decidable t.IsLegal := inferInstanceAs (Decidable (∀ c ∈ t, _))

/-- The text as it is printed, with an escape for every surrogate. -/
def toString (t : Text) : String :=
  String.ofList (t.flatMap fun c =>
    match c with
    | .scalar c => [c]
    | .surrogate index => '\\' :: 'u' :: Nat.toDigits 16 (0xD800 + index))

/-- What is said about a text that has no bytes, because of the first code points that are not
`fine` and the surrogates right behind them. -/
def encodingMessage (fine : CodePoint → Bool) (t : Text) : Text :=
  let first := (t.takeWhile fine).length
  let what : Text :=
    match (t.dropWhile fine).takeWhile CodePoint.isSurrogate with
    | [c] => "character '\\u" ++ paddedHex 4 c.toNat ++ "' in position " ++ ofNat first
    | run => "characters in position " ++ ofNat first ++ .scalar '-' :: ofNat (first + run.length - 1)
  "'utf-8' codec can't encode " ++ what ++ ": surrogates not allowed"

/-- The number of bytes of a text. -/
def utf8Length (t : Text) : Nat := (utf8 t).length

/-- Reads `more` continuation bytes, the first of them between `lo` and `hi`, onto the bits
read so far. `none` stands for a sequence that breaks off; the bytes that belong to it are
consumed all the same. -/
def continueUnit (more lo hi bits : Nat) (bytes : List UInt8) : Option CodePoint × List UInt8 :=
  match more, bytes with
  | 0, bytes => (some (CodePoint.ofNat bits), bytes)
  | _ + 1, [] => (none, [])
  | more + 1, b :: rest =>
    if lo ≤ b.toNat ∧ b.toNat ≤ hi then
      continueUnit more 0x80 0xBF (bits * 64 + (b.toNat - 0x80)) rest
    else (none, b :: rest)

/-- Reads one character that opens with the byte `lead`. -/
def readUnit (lead : UInt8) (rest : List UInt8) : Option CodePoint × List UInt8 :=
  let n := lead.toNat
  if n < 0x80 then (some (CodePoint.ofNat n), rest)
  else if n < 0xC2 then (none, rest)
  else if n < 0xE0 then continueUnit 1 0x80 0xBF (n - 0xC0) rest
  else if n = 0xE0 then continueUnit 2 0xA0 0xBF (n - 0xE0) rest
  else if n = 0xED then continueUnit 2 0x80 0x9F (n - 0xE0) rest
  else if n < 0xF0 then continueUnit 2 0x80 0xBF (n - 0xE0) rest
  else if n = 0xF0 then continueUnit 3 0x90 0xBF (n - 0xF0) rest
  else if n < 0xF4 then continueUnit 3 0x80 0xBF (n - 0xF0) rest
  else if n = 0xF4 then continueUnit 3 0x80 0x8F (n - 0xF0) rest
  else (none, rest)

theorem continueUnit_length (more lo hi bits : Nat) (bytes : List UInt8) :
    (continueUnit more lo hi bits bytes).2.length ≤ bytes.length := by
  induction more generalizing lo hi bits bytes with
  | zero => simp [continueUnit]
  | succ more ih =>
    cases bytes with
    | nil => simp [continueUnit]
    | cons b rest =>
      rw [continueUnit]
      split
      · exact Nat.le_succ_of_le (ih _ _ _ rest)
      · exact Nat.le_refl _

theorem readUnit_length (lead : UInt8) (rest : List UInt8) :
    (readUnit lead rest).2.length ≤ rest.length := by
  unfold readUnit
  simp only
  repeat' split
  all_goals first | exact Nat.le_refl _ | exact continueUnit_length _ _ _ _ _

/-- The characters read from bytes, with `none` for each ill-formed stretch. -/
def units (bytes : List UInt8) : List (Option CodePoint) :=
  match bytes with
  | [] => []
  | lead :: rest => (readUnit lead rest).1 :: units (readUnit lead rest).2
termination_by bytes.length
decreasing_by exact Nat.lt_succ_of_le (readUnit_length lead rest)

/-- The text that the bytes encode, if they are well-formed. -/
def decode? (bytes : List UInt8) : Option Text := (units bytes).mapM id

/-- The text that the bytes encode, with a replacement character for each ill-formed stretch. -/
def decodeReplacing (bytes : List UInt8) : Text :=
  (units bytes).map fun unit => unit.getD '\uFFFD'

/-- The text with a line feed for every carriage return and every pair of a carriage return
and a line feed. -/
def unifyNewlines : Text → Text
  | '\r' :: '\n' :: t => .scalar '\n' :: unifyNewlines t
  | '\r' :: t => .scalar '\n' :: unifyNewlines t
  | c :: t => c :: unifyNewlines t
  | [] => []

/-! ## Quoted texts

The form in which messages show names and paths: in single quotes, or in double quotes when the text
has a single quote and no double one. The quote in use and the backslash are escaped, and so is every
character that is not printable. -/

/-- The quote around a text: double when that avoids escaping a single one. -/
def quoteFor (t : Text) : CodePoint :=
  if t.contains '\'' && !t.contains '"' then '"' else '\''

/-- A character that is not printable, by its code point in the shortest of three widths. -/
def escapedCode (c : CodePoint) : Text :=
  let n := c.toNat
  if n ≤ 0xff then .scalar '\\' :: .scalar 'x' :: paddedHex 2 n
  else if n ≤ 0xffff then .scalar '\\' :: .scalar 'u' :: paddedHex 4 n
  else .scalar '\\' :: .scalar 'U' :: paddedHex 8 n

/-- One character between quotes. -/
def escaped (quote c : CodePoint) : Text :=
  if c = quote ∨ c = '\\' then [.scalar '\\', c]
  else if c = '\n' then ['\\', 'n']
  else if c = '\r' then ['\\', 'r']
  else if c = '\t' then ['\\', 't']
  else if isPrintable c then [c]
  else escapedCode c

/-- The quoted form of a text. -/
def quoted (t : Text) : Text :=
  let quote := quoteFor t
  quote :: t.flatMap (escaped quote) ++ [quote]

/-! ## Base 64

Characters outside the alphabet are passed over, and what follows a complete padding is not read. -/

/-- The value of a character of the alphabet. -/
def base64Digit? (c : CodePoint) : Option Nat :=
  if 'A' ≤ c ∧ c ≤ 'Z' then some (c.toNat - 'A'.toNat)
  else if 'a' ≤ c ∧ c ≤ 'z' then some (c.toNat - 'a'.toNat + 26)
  else if '0' ≤ c ∧ c ≤ '9' then some (c.toNat - '0'.toNat + 52)
  else if c = '+' then some 62
  else if c = '/' then some 63
  else none

/-- Reads on after `place` digits of a group of four, the last of which left `bits` over, and
`pads` padding characters. -/
def base64From (place bits pads : Nat) : Text → Option (List UInt8)
  | [] => if place = 0 then some [] else none
  | c :: t =>
    if c = '=' then
      if 2 ≤ place then
        if 4 ≤ place + pads + 1 then some [] else base64From place bits (pads + 1) t
      else base64From place bits pads t
    else match base64Digit? c with
      | none => base64From place bits pads t
      | some d =>
        if place = 0 then base64From 1 d 0 t
        else if place = 1 then (base64From 2 (d % 16) 0 t).map (.ofNat (bits * 4 + d / 16) :: ·)
        else if place = 2 then (base64From 3 (d % 4) 0 t).map (.ofNat (bits * 16 + d / 4) :: ·)
        else (base64From 0 0 0 t).map (.ofNat (bits * 64 + d) :: ·)

/-- The bytes that a text encodes, if its digits end at a group or a padding. -/
def base64? (t : Text) : Option (List UInt8) := base64From 0 0 0 t

end ModuleAtlas.Text
