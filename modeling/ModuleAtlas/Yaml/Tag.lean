import ModuleAtlas.Calendar
import ModuleAtlas.Text.Basic
/-!
The tags of nodes, and the tag that a plain scalar has by its form alone: truth values in
words, integers in four bases and in base sixty, decimals with a point, dates and times, the
words for nothing, and the signs for merging and for a default value.
-/
namespace ModuleAtlas.Yaml

/-- What a node is. -/
inductive Tag
  | null | bool | int | float | binary | timestamp | ordered | pairs | set
  | str | sequence | mapping | merge | value
  | unknown
deriving DecidableEq, Repr

namespace Tag

/-- The identifier that the standard tags share, in front of their names. -/
def standard : Text := "tag:yaml.org,2002:"

/-- The standard tags by their names. -/
def names : List (Text × Tag) :=
  [("null", null), ("bool", bool), ("int", int), ("float", float), ("binary", binary),
   ("timestamp", timestamp), ("omap", ordered), ("pairs", pairs), ("set", set), ("str", str),
   ("seq", sequence), ("map", mapping), ("merge", merge), ("value", value)]

/-- The tag with an identifier. -/
def ofUri (uri : Text) : Tag :=
  match Text.dropHead? standard uri with
  | some name => ((names.find? fun entry => entry.1 == name).map Prod.snd).getD unknown
  | none => unknown

/-! ## Forms of plain scalars -/

/-- The character is a digit or an underscore. -/
def isDigitMark (c : CodePoint) : Bool := c.isDigit || c == '_'

/-- The text is a digit with digits and underscores behind it. -/
def isDigits (t : Text) : Bool :=
  match t with
  | c :: t => c.isDigit && t.all isDigitMark
  | [] => false

/-- The text without a sign in front. -/
def dropSign : Text → Text
  | '-' :: t => t
  | '+' :: t => t
  | t => t

/-- The text is a number below sixty. -/
def isSixtieth : Text → Bool
  | [c] => c.isDigit
  | [c, d] => '0' ≤ c && c ≤ '5' && d.isDigit
  | _ => false

/-- The text is a row of numbers below sixty, a colon in front of each. -/
def areSixtieths (t : Text) : Bool :=
  match Text.splitOn ':' t with
  | [] :: first :: rest => (first :: rest).all isSixtieth
  | _ => false

/-- The text is a truth value in words. -/
def isBool (t : Text) : Bool :=
  (["yes", "Yes", "YES", "no", "No", "NO", "true", "True", "TRUE", "false", "False", "FALSE",
    "on", "On", "ON", "off", "Off", "OFF"] : List Text).contains t

/-- The text is not empty and its characters satisfy `p`. -/
def allSome (p : CodePoint → Bool) (t : Text) : Bool := !t.isEmpty && t.all p

/-- The text is an integer. -/
def isInt (t : Text) : Bool :=
  match dropSign t with
  | '0' :: 'b' :: t => allSome (fun c => c == '0' || c == '1' || c == '_') t
  | '0' :: 'x' :: t => allSome (fun c => (Text.hexDigit? c).isSome || c == '_') t
  | '0' :: t => t.all fun c => ('0' ≤ c && c ≤ '7') || c == '_'
  | c :: t =>
    c.isDigit &&
      (t.all isDigitMark || areSixtieths (t.dropWhile isDigitMark))
  | [] => false

/-- The text is empty or an exponent with a sign. -/
def isExponent : Text → Bool
  | [] => true
  | c :: sign :: t => (c == 'e' || c == 'E') && (sign == '-' || sign == '+') &&
    allSome CodePoint.isDigit t
  | _ => false

/-- The text is a decimal: digits with a point, perhaps with an exponent, or in base sixty, or
a word for infinity or for what is not a number. -/
def isFloat (t : Text) : Bool :=
  match t with
  | '.' :: c :: rest =>
    (c.isDigit && isExponent (rest.dropWhile isDigitMark)) ||
      ([".inf", ".Inf", ".INF", ".nan", ".NaN", ".NAN"] : List Text).contains t
  | _ =>
    let unsigned := dropSign t
    if ([".inf", ".Inf", ".INF"] : List Text).contains unsigned then true
    else
      let whole := unsigned.takeWhile (· != .scalar '.')
      match unsigned.dropWhile (· != .scalar '.') with
      | '.' :: part =>
        (isDigits whole && isExponent (part.dropWhile isDigitMark)) ||
          (isDigits (whole.takeWhile (· != .scalar ':')) &&
            areSixtieths (whole.dropWhile (· != .scalar ':')) &&
            part.all isDigitMark)
      | _ => false

/-! ## Dates and times -/

/-- The numbers of a date and time as they are written. -/
structure Stamp where
  year : Text
  month : Text
  day : Text
  time : Option (Text × Text × Text)
  fraction : Text
  /-- The sign, hours and minutes of an offset; no sign stands for universal time. -/
  offset : Option (Option Bool × Text × Text)

/-- At least `least` and at most `most` digits, and the rest. -/
def digits? (least most : Nat) (t : Text) : Option (Text × Text) :=
  let digits := (t.take most).takeWhile CodePoint.isDigit
  if digits.length < least then none else some (digits, t.drop digits.length)

/-- A blank of a line. -/
def isSpaceOrTab (c : CodePoint) : Bool := c == ' ' || c == '\t'

/-- The offset at the end of a time, behind blanks. -/
def offset? (t : Text) : Option (Option (Option Bool × Text × Text)) :=
  match t.dropWhile isSpaceOrTab with
  | [] => if t.isEmpty then some none else none
  | ['Z'] => some (some (none, [], []))
  | sign :: rest =>
    if sign = '-' ∨ sign = '+' then
      (digits? 1 2 rest).bind fun (hours, rest) =>
        match rest with
        | [] => some (some (some (sign == '-'), hours, []))
        | ':' :: rest => (digits? 2 2 rest).bind fun (minutes, rest) =>
          if rest.isEmpty then some (some (some (sign == '-'), hours, minutes)) else none
        | _ => none
    else none

/-- The fraction of a second, if there is a point, and the rest. -/
def fractionOf : Text → Text × Text
  | '.' :: t => (t.takeWhile CodePoint.isDigit, t.dropWhile CodePoint.isDigit)
  | t => ([], t)

/-- A date without a time, or a time behind the letter T or blanks. -/
def stamp? (t : Text) : Option Stamp :=
  (digits? 4 4 t).bind fun (year, t) => (Text.dropHead? ['-'] t).bind fun t =>
  (digits? 1 2 t).bind fun (month, t) => (Text.dropHead? ['-'] t).bind fun t =>
  (digits? 1 2 t).bind fun (day, t) =>
    match t with
    | [] => some ⟨year, month, day, none, [], none⟩
    | c :: rest =>
      if c = 'T' ∨ c = 't' ∨ isSpaceOrTab c then
        let rest := if c = 'T' ∨ c = 't' then rest else rest.dropWhile isSpaceOrTab
        (digits? 1 2 rest).bind fun (hour, t) => (Text.dropHead? [':'] t).bind fun t =>
        (digits? 2 2 t).bind fun (minute, t) => (Text.dropHead? [':'] t).bind fun t =>
        (digits? 2 2 t).bind fun (second, t) =>
          let (fraction, t) := fractionOf t
          (offset? t).map fun offset =>
            ⟨year, month, day, some (hour, minute, second), fraction, offset⟩
      else none

/-- The text is a date, with months and days of two digits, or a date and time. -/
def isTimestamp (t : Text) : Bool :=
  match stamp? t with
  | some s => s.time.isSome || (s.month.length == 2 && s.day.length == 2)
  | none => false

/-- The tag of a plain scalar by its form. A line end behind it does not count. -/
def ofPlain (t : Text) : Tag :=
  let body := if t.getLast? == some (.scalar '\n') then t.dropLast else t
  if t.isEmpty then null
  else if body.isEmpty then str
  else if isBool body then bool
  else if isFloat body then float
  else if isInt body then int
  else if body = "<<" then merge
  else if (["~", "null", "Null", "NULL"] : List Text).contains body then null
  else if isTimestamp body then timestamp
  else if body = "=" then value
  else if (["!", "&", "*"] : List Text).contains body then unknown
  else str

end Tag
end ModuleAtlas.Yaml
