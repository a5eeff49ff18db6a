import ModuleAtlas.Json.Basic
import ModuleAtlas.Number.Reading
/-!
Reading JSON. The grammar is the strict one with the words `NaN`, `Infinity` and `-Infinity`
added; of members with one key the last stays.
-/
namespace ModuleAtlas.Json
open Number (IntegerFault digitLimit)

/-- What is left behind something that has been read from a text. -/
abbrev Rest (t : Text) := { rest : Text // rest.length < t.length }

/-- The characters that may stand between tokens. -/
def isSpace (c : CodePoint) : Bool := c == ' ' || c == '\t' || c == '\n' || c == '\r'

/-- The text without the spaces it opens with. -/
def skipSpace (t : Text) : Text := t.dropWhile isSpace

theorem skipSpace_length (t : Text) : (skipSpace t).length ≤ t.length :=
  (List.dropWhile_sublist _).length_le

/-- The value of four hexadecimal digits. -/
def hex4? (a b c d : CodePoint) : Option Nat :=
  (Text.hexDigit? a).bind fun a => (Text.hexDigit? b).bind fun b =>
    (Text.hexDigit? c).bind fun c => (Text.hexDigit? d).map fun d =>
      ((a * 16 + b) * 16 + c) * 16 + d

/-- The character that a letter behind a backslash stands for. -/
def shortEscape? (c : CodePoint) : Option CodePoint :=
  if c = '"' ∨ c = '\\' ∨ c = '/' then some c
  else if c = 'b' then some (CodePoint.ofNat 8)
  else if c = 'f' then some (CodePoint.ofNat 12)
  else if c = 'n' then some '\n'
  else if c = 'r' then some '\r'
  else if c = 't' then some '\t'
  else none

/-- A unit of a string. A surrogate that an escape writes may be half of a pair. -/
inductive StringUnit
  | point (c : CodePoint)
  | half (index : Fin 0x800)
deriving DecidableEq, Repr

namespace StringUnit

/-- The unit that an escape with a code writes. -/
def ofCode (n : Nat) : StringUnit :=
  match CodePoint.ofNat n with
  | .scalar c => point c
  | .surrogate index => half index

/-- The text of units: a half of the first kind and one of the second kind behind it are one
character, and a half that stands alone is a surrogate. -/
def joined : List StringUnit → Text
  | [] => []
  | point c :: units => c :: joined units
  | [half i] => [.surrogate i]
  | half i :: point c :: units => .surrogate i :: joined (point c :: units)
  | half i :: half j :: units =>
    if i < 0x400 ∧ 0x400 ≤ j then
      CodePoint.ofNat (0x10000 + i * 0x400 + (j - 0x400)) :: joined units
    else .surrogate i :: joined (half j :: units)

end StringUnit

/-- The units of a string up to its closing quote, and the rest. -/
def stringUnits? : Text → Option (List StringUnit × Text)
  | [] => none
  | '"' :: t => some ([], t)
  | '\\' :: 'u' :: a :: b :: c :: d :: t =>
    (hex4? a b c d).bind fun n =>
      (stringUnits? t).map fun (units, rest) => (.ofCode n :: units, rest)
  | '\\' :: c :: t =>
    (shortEscape? c).bind fun x =>
      (stringUnits? t).map fun (units, rest) => (.point x :: units, rest)
  | c :: t =>
    if c.toNat < 32 ∨ c = '\\' then none
    else (stringUnits? t).map fun (units, rest) => (.point c :: units, rest)

/-- The text of a string up to its closing quote, and the rest. -/
def stringBody? (t : Text) : Option (Text × Text) :=
  (stringUnits? t).map fun (units, rest) => (StringUnit.joined units, rest)

/-- The decimal digits a text opens with, and the rest. -/
def spanDigits (t : Text) : Text × Text := (t.takeWhile CodePoint.isDigit, t.dropWhile CodePoint.isDigit)

/-- The whole part of a number: a zero, or digits that do not open with one. -/
def wholePart? : Text → Option (Text × Text)
  | '0' :: t => some ([.scalar '0'], t)
  | t => if (t.takeWhile CodePoint.isDigit).isEmpty then none else some (spanDigits t)

/-- The digits behind a point, if there is a point with digits behind it, and the rest. -/
def fraction : Text → Option Text × Text
  | '.' :: t =>
    if (t.takeWhile CodePoint.isDigit).isEmpty then (none, .scalar '.' :: t)
    else (some (spanDigits t).1, (spanDigits t).2)
  | t => (none, t)

/-- The integer that a sign and digits write. -/
def signedValue (negative : Bool) (digits : Text) : Int :=
  Double.signed negative (Number.decimalValue digits)

/-- The exponent, if there is one with digits, and the rest. -/
def exponent : Text → Option Int × Text
  | c :: t =>
    let signed := Number.splitSign t
    if (c == 'e' || c == 'E') && (signed.2.head?.map CodePoint.isDigit).getD false then
      (some (signedValue signed.1 (spanDigits signed.2).1), (spanDigits signed.2).2)
    else (none, c :: t)
  | [] => (none, [])

/-- The number that digits, a fraction and an exponent write. -/
def numberOf (negative : Bool) (whole : Text) (fraction : Option Text) (exponent : Option Int) :
    Except IntegerFault Json :=
  match fraction, exponent with
  | none, none =>
    if digitLimit < whole.length then .error (.tooLong whole.length)
    else .ok (.int (signedValue negative whole))
  | fraction, exponent =>
    let part := fraction.getD []
    .ok (.double (Double.ofDecimal negative (Number.decimalValue (whole ++ part))
      (exponent.getD 0 - part.length)))

/-- A number without its sign, and the rest. -/
def unsigned (negative : Bool) (t : Text) : Except IntegerFault (Json × Text) :=
  match wholePart? t with
  | none => .error .malformed
  | some (whole, rest) =>
    let (part, rest) := fraction rest
    let (power, rest) := exponent rest
    match numberOf negative whole part power with
    | .ok number => .ok (number, rest)
    | .error fault => .error fault

/-- A value that is neither a string nor a container, and the rest. -/
def atom (t : Text) : Except IntegerFault (Json × Text) :=
  match Text.dropHead? "null" t with
  | some rest => .ok (.null, rest)
  | none => match Text.dropHead? "true" t with
    | some rest => .ok (.bool true, rest)
    | none => match Text.dropHead? "false" t with
      | some rest => .ok (.bool false, rest)
      | none => match Text.dropHead? "NaN" t with
        | some rest => .ok (.double .nan, rest)
        | none => match Text.dropHead? "Infinity" t with
          | some rest => .ok (.double (.infinite false), rest)
          | none => match Text.dropHead? "-Infinity" t with
            | some rest => .ok (.double (.infinite true), rest)
            | none => match t with
              | '-' :: t => unsigned true t
              | t => unsigned false t

/-! ## What is read gets shorter -/

theorem stringUnits?_length {t : Text} {units : List StringUnit} {rest : Text}
    (read : stringUnits? t = some (units, rest)) : rest.length < t.length := by
  fun_induction stringUnits? t generalizing units rest with
  | case1 => simp at read
  | case2 t =>
    obtain ⟨-, rfl⟩ := Prod.mk.inj (Option.some.inj read)
    simp
  | case3 a b c d t ih =>
    obtain ⟨n, -, more⟩ := Option.bind_eq_some_iff.1 read
    obtain ⟨⟨us, r⟩, found, same⟩ := Option.map_eq_some_iff.1 more
    obtain ⟨-, rfl⟩ := Prod.mk.inj same
    have := ih found
    simp only [List.length_cons]; omega
  | case4 c t _ ih =>
    obtain ⟨n, -, more⟩ := Option.bind_eq_some_iff.1 read
    obtain ⟨⟨us, r⟩, found, same⟩ := Option.map_eq_some_iff.1 more
    obtain ⟨-, rfl⟩ := Prod.mk.inj same
    have := ih found
    simp only [List.length_cons]; omega
  | case5 => simp at read
  | case6 c t _ _ _ _ ih =>
    obtain ⟨⟨us, r⟩, found, same⟩ := Option.map_eq_some_iff.1 read
    obtain ⟨-, rfl⟩ := Prod.mk.inj same
    have := ih found
    simp only [List.length_cons]; omega

theorem stringBody?_length {t body rest : Text} (read : stringBody? t = some (body, rest)) :
    rest.length < t.length := by
  obtain ⟨⟨units, r⟩, found, same⟩ := Option.map_eq_some_iff.1 read
  obtain ⟨-, rfl⟩ := Prod.mk.inj same
  exact stringUnits?_length found

theorem dropHead?_length {head t rest : Text} (read : Text.dropHead? head t = some rest)
    (some : head ≠ []) : rest.length < t.length := by
  rw [Text.dropHead?_eq_some_iff.1 read, List.length_append]
  have := List.length_pos_iff.2 some
  omega

theorem spanDigits_length {t : Text} (some : (t.takeWhile CodePoint.isDigit).isEmpty = false) :
    (spanDigits t).2.length < t.length := by
  have split : t = t.takeWhile CodePoint.isDigit ++ t.dropWhile CodePoint.isDigit :=
    List.takeWhile_append_dropWhile.symm
  have positive : 0 < (t.takeWhile CodePoint.isDigit).length :=
    List.length_pos_iff.2 (by simpa using some)
  have := congrArg List.length split
  rw [List.length_append] at this
  simp only [spanDigits]; omega

theorem wholePart?_length {t digits rest : Text} (read : wholePart? t = some (digits, rest)) :
    rest.length < t.length := by
  unfold wholePart? at read
  split at read
  · obtain ⟨-, rfl⟩ := Prod.mk.inj (Option.some.inj read)
    simp
  · split at read
    · simp at read
    · rename_i nonempty
      have := spanDigits_length (t := t) (by simpa using nonempty)
      rw [Option.some.inj read] at this
      exact this

theorem fraction_length (t : Text) : (fraction t).2.length ≤ t.length := by
  unfold fraction
  split
  · rename_i t
    split
    · exact Nat.le_refl _
    · rename_i nonempty
      have := spanDigits_length (t := t) (by simpa using nonempty)
      simp only [List.length_cons]; omega
  · exact Nat.le_refl _

theorem splitSign_length (t : Text) : (Number.splitSign t).2.length ≤ t.length := by
  unfold Number.splitSign
  split <;> simp

theorem exponent_length (t : Text) : (exponent t).2.length ≤ t.length := by
  unfold exponent
  split
  · rename_i c t
    have := splitSign_length t
    have := (List.dropWhile_sublist (p := CodePoint.isDigit) (l := (Number.splitSign t).2)).length_le
    simp only
    split
    · simp only [spanDigits, List.length_cons]; omega
    · exact Nat.le_refl _
  · exact Nat.le_refl _

theorem unsigned_length {negative : Bool} {t rest : Text} {value : Json}
    (read : unsigned negative t = .ok (value, rest)) : rest.length < t.length := by
  unfold unsigned at read
  split at read
  · simp at read
  · rename_i whole r found
    have := wholePart?_length found
    have := fraction_length r
    have := exponent_length (fraction r).2
    simp only at read
    split at read
    · obtain ⟨-, rfl⟩ := Prod.mk.inj (Except.ok.inj read)
      omega
    · simp at read

theorem atom_length {t rest : Text} {value : Json} (read : atom t = .ok (value, rest)) :
    rest.length < t.length := by
  unfold atom at read
  repeat' split at read
  all_goals first
    | (obtain ⟨-, rfl⟩ := Prod.mk.inj (Except.ok.inj read)
       exact dropHead?_length (by assumption) (by simp))
    | exact Nat.lt_succ_of_lt (unsigned_length read)
    | exact unsigned_length read

/-! ## Values and containers -/

mutual

/-- Reads a value. -/
def value (t : Text) : Except IntegerFault (Json × Rest t) :=
  match same : t with
  | '"' :: s =>
    match body : stringBody? s with
    | some (x, rest) => .ok (.string x, ⟨rest, by
        have := stringBody?_length body; simp only [List.length_cons]; omega⟩)
    | none => .error .malformed
  | '[' :: s =>
    match after : skipSpace s with
    | ']' :: rest => .ok (.array [], ⟨rest, by
        have := skipSpace_length s
        simp only [after, List.length_cons] at this ⊢; omega⟩)
    | _ =>
      match elements (skipSpace s) with
      | .ok (xs, ⟨rest, shorter⟩) => .ok (.array xs, ⟨rest, by
          have := skipSpace_length s; simp only [List.length_cons]; omega⟩)
      | .error fault => .error fault
  | '{' :: s =>
    match after : skipSpace s with
    | '}' :: rest => .ok (.object [], ⟨rest, by
        have := skipSpace_length s
        simp only [after, List.length_cons] at this ⊢; omega⟩)
    | _ =>
      match members (skipSpace s) with
      | .ok (xs, ⟨rest, shorter⟩) => .ok (.object (Table.ofList xs).entries, ⟨rest, by
          have := skipSpace_length s; simp only [List.length_cons]; omega⟩)
      | .error fault => .error fault
  | t =>
    match read : atom t with
    | .ok (x, rest) => .ok (x, ⟨rest, by rw [same] at *; exact atom_length read⟩)
    | .error fault => .error fault
termination_by (t.length, 0)
decreasing_by
  all_goals
    have := skipSpace_length s
    apply Prod.Lex.left
    simp only [List.length_cons]; omega

/-- Reads elements up to the bracket that closes the array. -/
def elements (t : Text) : Except IntegerFault (List Json × Rest t) :=
  match value t with
  | .error fault => .error fault
  | .ok (x, ⟨s, shorter⟩) =>
    match after : skipSpace s with
    | ']' :: rest => .ok ([x], ⟨rest, by
        have := skipSpace_length s
        simp only [after, List.length_cons] at this; omega⟩)
    | ',' :: s' =>
      have less : (skipSpace s').length < t.length := by
        have := skipSpace_length s
        have := skipSpace_length s'
        simp only [after, List.length_cons] at *; omega
      match elements (skipSpace s') with
      | .ok (xs, ⟨rest, shorter'⟩) => .ok (x :: xs, ⟨rest, by omega⟩)
      | .error fault => .error fault
    | _ => .error .malformed
termination_by (t.length, 1)
decreasing_by
  · exact Prod.Lex.right _ Nat.zero_lt_one
  · exact Prod.Lex.left _ _ less

/-- Reads members up to the brace that closes the object. -/
def members (t : Text) : Except IntegerFault (List (Text × Json) × Rest t) :=
  match opening : t with
  | '"' :: s =>
    match body : stringBody? s with
    | none => .error .malformed
    | some (key, afterKey) =>
      match colon : skipSpace afterKey with
      | ':' :: s' =>
        have less : (skipSpace s').length < t.length := by
          have := stringBody?_length body
          have := skipSpace_length afterKey
          have := skipSpace_length s'
          simp only [opening, colon, List.length_cons] at *; omega
        match value (skipSpace s') with
        | .error fault => .error fault
        | .ok (x, ⟨s'', shorter⟩) =>
          match after : skipSpace s'' with
          | '}' :: rest => .ok ([(key, x)], ⟨rest, by
              have := skipSpace_length s''
              simp only [opening, after, List.length_cons] at *; omega⟩)
          | ',' :: next =>
            have less' : (skipSpace next).length < t.length := by
              have := skipSpace_length s''
              have := skipSpace_length next
              simp only [after, List.length_cons] at *; omega
            match members (skipSpace next) with
            | .ok (xs, ⟨rest, shorter'⟩) => .ok ((key, x) :: xs, ⟨rest, by
                rw [opening] at less'; omega⟩)
            | .error fault => .error fault
          | _ => .error .malformed
      | _ => .error .malformed
  | _ => .error .malformed
termination_by (t.length, 1)
decreasing_by
  · exact Prod.Lex.left _ _ (by rw [opening] at less; exact less)
  · exact Prod.Lex.left _ _ (by rw [opening] at less'; exact less')

end

/-- Reads a whole document. -/
def read (t : Text) : Except IntegerFault Json :=
  match value (skipSpace t) with
  | .ok (x, ⟨rest, _⟩) => if (skipSpace rest).isEmpty then .ok x else .error .malformed
  | .error fault => .error fault

end ModuleAtlas.Json
