import ModuleAtlas.Text.Basic
/-!
In YAML the place of a character matters: how far a line is indented, and whether a key and its
colon share a line. A document is therefore read as a list of characters with their places.
Lines end with a line feed or one of the three other line ends of Unicode.
-/
namespace ModuleAtlas.Yaml

/-- A character and where it stands: how many characters precede it in the document, how many
lines, and how many characters in its line. -/
structure Spot where
  char : CodePoint
  index : Nat
  line : Nat
  column : Nat
deriving Repr

/-- The rest of a document. -/
abbrev Spots := List Spot

/-- The character ends a line. -/
def isBreak (c : CodePoint) : Bool := c == '\n' || c == '\x85' || c == '\u2028' || c == '\u2029'

/-- What a line end stands for in the text of a scalar. -/
def breakText (c : CodePoint) : CodePoint := if c == '\x85' then '\n' else c

/-- The characters with their places, from a place on. A byte order mark takes no column. -/
def locateFrom (index line column : Nat) : Text → Spots
  | [] => []
  | c :: t =>
    ⟨c, index, line, column⟩ ::
      if isBreak c then locateFrom (index + 1) (line + 1) 0 t
      else locateFrom (index + 1) line (if c == '\uFEFF' then column else column + 1) t

/-- The characters of a document with their places. -/
def locate (t : Text) : Spots := locateFrom 0 0 0 t

/-- The next character. -/
def peek (s : Spots) : Option CodePoint := s.head?.map Spot.char

/-- The characters without their places. -/
def textOf (s : Spots) : Text := s.map Spot.char

/-- The next character is `c`. -/
def nextIs (c : CodePoint) (s : Spots) : Bool := peek s == some c

/-- The document or the line ends here, or a space follows. -/
def endsWord : Option CodePoint → Bool
  | none => true
  | some c => c == ' ' || isBreak c

/-- The document or the line ends here, or a blank follows. -/
def endsToken : Option CodePoint → Bool
  | none => true
  | some c => c == ' ' || c == '\t' || isBreak c

/-- The rest opens with three times the character, and then a token ends. -/
def isMark (c : CodePoint) (s : Spots) : Bool :=
  textOf (s.take 3) == [c, c, c] && endsToken (peek (s.drop 3))

/-- The rest opens with a mark between documents. -/
def isSeparator (s : Spots) : Bool := isMark '-' s || isMark '.' s

/-- The rest behind the spaces. -/
def skipSpaces (s : Spots) : Spots := s.dropWhile fun x => x.char == ' '

/-- The rest of the line. -/
def lineText (s : Spots) : Text := textOf (s.takeWhile fun x => !isBreak x.char)

/-- The rest from the end of the line on. -/
def skipLine (s : Spots) : Spots := s.dropWhile fun x => !isBreak x.char

/-- The rest behind a comment, if there is one. -/
def skipComment (s : Spots) : Spots := if nextIs '#' s then skipLine s else s

/-- The character may stand in a YAML document. -/
def isAllowed (c : CodePoint) : Bool :=
  c == '\t' || c == '\n' || c == '\r' || (' ' ≤ c && c ≤ '~') || c == '\x85' ||
    ('\xA0' ≤ c && c ≤ '\uFFFD' && !c.isSurrogate) || 0x10000 ≤ c.toNat

end ModuleAtlas.Yaml
