import ModuleAtlas.Json.Basic
import ModuleAtlas.Number.Shortest
/-!
Writing JSON in plain characters of the basic alphabet, everything else escaped. With an
indent each element and member has its own line; without one they follow each other on one
line.
-/
namespace ModuleAtlas.Json

/-- The escape of one 16-bit unit. -/
def unitEscape (n : Nat) : Text := .scalar '\\' :: .scalar 'u' :: Text.paddedHex 4 n

/-- One character of a string. -/
def escape (c : CodePoint) : Text :=
  if c = '"' then ['\\', '"']
  else if c = '\\' then ['\\', '\\']
  else if c = '\n' then ['\\', 'n']
  else if c = '\r' then ['\\', 'r']
  else if c = '\t' then ['\\', 't']
  else if c.toNat = 8 then ['\\', 'b']
  else if c.toNat = 12 then ['\\', 'f']
  else if 32 ≤ c.toNat ∧ c.toNat < 127 then [c]
  else if c.toNat < 0x10000 then unitEscape c.toNat
  else
    let n := c.toNat - 0x10000
    unitEscape (0xD800 + n / 0x400) ++ unitEscape (0xDC00 + n % 0x400)

/-- A string in quotes. -/
def stringText (t : Text) : Text := .scalar '"' :: t.flatMap escape ++ [.scalar '"']

/-- How a document is laid out. -/
inductive Layout
  /-- Everything on one line, a blank behind each comma. -/
  | line
  /-- Every element on its own line, so many blanks further in than its container. -/
  | indented (width : Nat)
deriving DecidableEq, Repr

namespace Layout

/-- The layout of an indent. A negative one is as good as none at all, but lines still end; without
an indent they do not. -/
def ofIndent : Option Int → Layout
  | none => line
  | some width => indented width.toNat

/-- What stands before an element inside `depth` containers. -/
def lead (depth : Nat) : Layout → Text
  | line => []
  | indented width => .scalar '\n' :: List.replicate (width * depth) ' '

/-- What stands between two elements inside `depth` containers. -/
def comma (depth : Nat) : Layout → Text
  | line => ([',', ' '] : Text)
  | indented width => .scalar ',' :: lead depth (indented width)

end Layout

mutual

/-- The text of a value inside `depth` containers. -/
def render (layout : Layout) (depth : Nat) : Json → Text
  | null => "null"
  | bool b => if b then "true" else "false"
  | int n => Text.ofInt n
  | double d => d.text "NaN" "Infinity"
  | string t => stringText t
  | array [] => (['[', ']'] : Text)
  | array (x :: xs) =>
    .scalar '[' :: layout.lead (depth + 1) ++ render layout (depth + 1) x
      ++ renderElements layout (depth + 1) xs ++ layout.lead depth ++ [.scalar ']']
  | object [] => (['{', '}'] : Text)
  | object ((key, x) :: rest) =>
    .scalar '{' :: layout.lead (depth + 1) ++ stringText key ++ ([':', ' '] : Text)
      ++ render layout (depth + 1) x
      ++ renderMembers layout (depth + 1) rest ++ layout.lead depth ++ [.scalar '}']
termination_by structural value => value

/-- The texts of further elements, each behind a comma. -/
def renderElements (layout : Layout) (depth : Nat) : List Json → Text
  | [] => []
  | x :: xs => layout.comma depth ++ render layout depth x ++ renderElements layout depth xs
termination_by structural elements => elements

/-- The texts of further members, each behind a comma. -/
def renderMembers (layout : Layout) (depth : Nat) : List (Text × Json) → Text
  | [] => []
  | (key, x) :: rest =>
    layout.comma depth ++ stringText key ++ ([':', ' '] : Text) ++ render layout depth x
      ++ renderMembers layout depth rest
termination_by structural members => members

end

/-- The text of a document. -/
def text (layout : Layout) (value : Json) : Text := render layout 0 value

end ModuleAtlas.Json
