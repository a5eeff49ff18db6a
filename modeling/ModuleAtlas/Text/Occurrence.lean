import ModuleAtlas.Text.Class
/-!
Looking for a pattern in a text. A pattern is a function from the text at some position to what
it recognises there and the rest behind it; it is also told whether the position is a word
boundary, that is, whether no word character stands before it. Occurrences are taken from left
to right and do not overlap (`occurrences`).
-/
namespace ModuleAtlas.Text
variable {α : Type}

/-- A pattern: what it recognises at a position, and the rest of the text. -/
abbrev Pattern (α : Type) := (boundary : Bool) → Text → Option (α × Text)

/-- The occurrences from a position on, of which the next `covered` characters belong to the
occurrence before. -/
def occurrencesFrom (pattern : Pattern α) : (boundary : Bool) → (covered : Nat) → Text → List α
  | _, _, [] => []
  | _, covered + 1, c :: t => occurrencesFrom pattern (!isWord c) covered t
  | boundary, 0, c :: t =>
    match pattern boundary (c :: t) with
    | some (found, rest) =>
      found :: occurrencesFrom pattern (!isWord c) (t.length - rest.length) t
    | none => occurrencesFrom pattern (!isWord c) 0 t

/-- What the pattern recognises in a text, from left to right and without overlaps. -/
def occurrences (pattern : Pattern α) (t : Text) : List α := occurrencesFrom pattern true 0 t

/-- The first occurrence from a position on. -/
def firstFrom? (pattern : Pattern α) : (boundary : Bool) → Text → Option α
  | _, [] => none
  | boundary, c :: t =>
    match pattern boundary (c :: t) with
    | some (found, _) => some found
    | none => firstFrom? pattern (!isWord c) t

/-- What the pattern recognises first in a text. -/
def first? (pattern : Pattern α) (t : Text) : Option α := firstFrom? pattern true t

/-- A pattern that is looked for at word boundaries only. -/
def atBoundary (recognise : Text → Option (α × Text)) : Pattern α
  | true, t => recognise t
  | false, _ => none

/-- A pattern that is looked for everywhere. -/
def anywhere (recognise : Text → Option (α × Text)) : Pattern α := fun _ t => recognise t

/-- The character opens or closes a string literal. -/
def isQuote (c : CodePoint) : Bool := c == '\'' || c == '"'

/-- A string literal between quotes of either kind, without a quote inside. -/
def literal? : Text → Option (Text × Text)
  | [] => none
  | c :: t =>
    if isQuote c then
      match t.dropWhile (!isQuote ·) with
      | _ :: rest => some (t.takeWhile (!isQuote ·), rest)
      | [] => none
    else none

/-- A string literal that is not empty. -/
def fullLiteral? (t : Text) : Option (Text × Text) :=
  match literal? t with
  | some (_ :: _, _) => literal? t
  | _ => none

end ModuleAtlas.Text
