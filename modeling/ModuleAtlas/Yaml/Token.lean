import ModuleAtlas.Text.Encoding
import ModuleAtlas.Yaml.Scalar
/-!
The tokens of a YAML document. Besides what is written, tokens mark where block collections
begin and end, which follows from indentation, and where simple keys begin, which is known only
at their colon: the tokens of a possible key are kept track of, and the mark is put in front of
them when the colon comes. The tokens of a document that cannot be read hold one that says why.
-/
namespace ModuleAtlas.Yaml

/-- A directive in front of a document. -/
inductive Directive
  | version (major : Nat)
  | tag (handle uri : Text)
  | reserved

/-- A token. -/
inductive Token
  | directive (d : Directive)
  | documentStart | documentEnd
  | blockSequenceStart | blockMappingStart | blockEnd
  | flowSequenceStart | flowSequenceEnd
  | flowMappingStart | flowMappingEnd
  | flowEntry | blockEntry
  | key | value
  | reference (name : Text)
  | anchor (name : Text)
  | tag (handle : Option Text) (rest : Text)
  | scalar (t : Text) (plain : Bool)
  | fault (f : DataFault)

/-- The beginning of a possible simple key: the number of tokens before it, whether it has to be
a key, and its place. -/
structure KeyStart where
  tokens : Nat
  required : Bool
  spot : Spot

/-- What the scanner of tokens knows. -/
structure Scan where
  /-- The tokens so far, the last one first. -/
  tokens : List Token
  /-- The indentation of the innermost block collection, and of those around it. -/
  indent : Int
  indents : List Int
  /-- The possible key in the innermost flow collection or in the block, and those in the
  collections around it. -/
  keyStart : Option KeyStart
  outerKeys : List (Option KeyStart)
  /-- A simple key may begin here. -/
  mayBeKey : Bool

namespace Scan

/-- Before the first token. -/
def start : Scan := ⟨[], -1, [], none, [], true⟩

/-- The next token is inside a flow collection. -/
def inFlow (s : Scan) : Bool := !s.outerKeys.isEmpty

/-- One more token. -/
def add (s : Scan) (t : Token) : Scan := { s with tokens := t :: s.tokens }

/-- A token in front of those that came after the first `count`. -/
def insertAt (s : Scan) (count : Nat) (t : Token) : Scan :=
  let later := s.tokens.length - count
  { s with tokens := s.tokens.take later ++ t :: s.tokens.drop later }

/-- Block collections that are indented more than a column end. -/
def unwind (column : Int) (s : Scan) : Scan :=
  if s.inFlow then s
  else
    let rec close (indent : Int) (indents : List Int) (tokens : List Token) :
        Int × List Int × List Token :=
      match indents with
      | [] => (indent, [], tokens)
      | outer :: rest =>
        if column < indent then close outer rest (.blockEnd :: tokens)
        else (indent, outer :: rest, tokens)
    let (indent, indents, tokens) := close s.indent s.indents s.tokens
    { s with indent, indents, tokens }

/-- A block collection begins at a column, if it is indented more than the one around it. -/
def deepen? (column : Int) (s : Scan) : Option Scan :=
  if s.indent < column then some { s with indent := column, indents := s.indent :: s.indents }
  else none

/-- A possible key is given up, unless it has to be one. -/
def dropKey (s : Scan) : Except DataFault Scan :=
  match s.keyStart with
  | some k => if k.required then .error .malformed else .ok { s with keyStart := none }
  | none => .ok s

/-- A key and its colon are on one line and not too far from each other. -/
def isStale (here : Spot) (k : KeyStart) : Bool :=
  k.spot.line != here.line || 1024 < here.index - k.spot.index

/-- What is left of a possible key at a place. -/
def refresh (here : Spot) (k : Option KeyStart) : Except DataFault (Option KeyStart) :=
  match k with
  | none => .ok none
  | some k =>
    if isStale here k then (if k.required then .error .malformed else .ok none) else .ok (some k)

/-- The possible keys that are left at a place. -/
def dropStale (here : Spot) (s : Scan) : Except DataFault Scan :=
  match refresh here s.keyStart, s.outerKeys.mapM (refresh here) with
  | .ok keyStart, .ok outerKeys => .ok { s with keyStart, outerKeys }
  | .error fault, _ | _, .error fault => .error fault

/-- A simple key may begin with the next token. -/
def markKey (here : Spot) (s : Scan) : Except DataFault Scan :=
  if s.mayBeKey then
    s.dropKey.map fun s =>
      let required := !s.inFlow && s.indent == (here.column : Int)
      { s with keyStart := some ⟨s.tokens.length, required, here⟩ }
  else .ok s

end Scan

/-! ## Names, tags and directives -/

/-- The character can stand in a name. -/
def isName (c : CodePoint) : Bool :=
  ('0' ≤ c && c ≤ '9') || ('A' ≤ c && c ≤ 'Z') || ('a' ≤ c && c ≤ 'z') || c == '-' || c == '_'

/-- A name, which is not empty, and the rest. -/
def name? (s : Spots) : Except DataFault (Text × Spots) :=
  let name := s.takeWhile fun x => isName x.char
  if name.isEmpty then .error .malformed
  else .ok (textOf name, s.dropWhile fun x => isName x.char)

/-- The character can stand in the identifier of a tag. -/
def isUri (c : CodePoint) : Bool :=
  isName c || ("/;?:@&=+$,.!~*'()[]%" : Text).contains c

/-- Bytes written as a percent sign and two digits, and the rest. -/
def uriBytes : Spots → Except DataFault (List UInt8 × Spots)
  | p :: a :: b :: t =>
    if p.char = '%' then
      match Text.hexDigit? a.char, Text.hexDigit? b.char with
      | some a, some b => (uriBytes t).map fun (more, rest) => (.ofNat (a * 16 + b) :: more, rest)
      | _, _ => .error .malformed
    else .ok ([], p :: a :: b :: t)
  | s => if nextIs '%' s then .error .malformed else .ok ([], s)

/-- Reads the identifier of a tag on, in at most `fuel` pieces. -/
def uriFrom : (fuel : Nat) → Spots → Except DataFault (Text × Spots)
  | 0, s => .ok ([], s)
  | fuel + 1, s =>
    let plain := s.takeWhile fun x => isUri x.char && x.char != .scalar '%'
    let rest := s.dropWhile fun x => isUri x.char && x.char != .scalar '%'
    if nextIs '%' rest then
      match uriBytes rest with
      | .error fault => .error fault
      | .ok (bytes, rest) =>
        match Text.decode? bytes with
        | none => .error .malformed
        | some t => (uriFrom fuel rest).map fun (more, rest) => (textOf plain ++ t ++ more, rest)
    else .ok (textOf plain, rest)

/-- The identifier of a tag, which is not empty, and the rest. -/
def uri (s : Spots) : Except DataFault (Text × Spots) :=
  if (peek s).any isUri then uriFrom s.length s else .error .malformed

/-- The handle of a tag: an exclamation mark, or a name between two. -/
def tagHandle (s : Spots) : Except DataFault (Text × Spots) :=
  match s with
  | [] => .error .malformed
  | x :: t =>
    if x.char ≠ '!' then .error .malformed
    else if nextIs ' ' t then .ok ([.scalar '!'], t)
    else
      let name := t.takeWhile fun x => isName x.char
      let rest := t.dropWhile fun x => isName x.char
      if nextIs '!' rest then .ok (.scalar '!' :: textOf name ++ [.scalar '!'], rest.drop 1)
      else .error .malformed

/-- A tag, from its exclamation mark on. -/
def tagToken (s : Spots) : Except DataFault (Token × Spots) :=
  let read : Except DataFault (Token × Spots) :=
    if nextIs '<' (s.drop 1) then
      match uri (s.drop 2) with
      | .error fault => .error fault
      | .ok (t, rest) =>
        if nextIs '>' rest then .ok (.tag none t, rest.drop 1) else .error .malformed
    else if endsToken (peek (s.drop 1)) then .ok (.tag none ['!'], s.drop 1)
    else if (lineText (s.drop 1)).takeWhile (· != .scalar ' ') |>.contains '!' then
      match tagHandle s with
      | .error fault => .error fault
      | .ok (handle, rest) => (uri rest).map fun (t, rest) => (.tag (some handle) t, rest)
    else (uri (s.drop 1)).map fun (t, rest) => (.tag (some [.scalar '!']) t, rest)
  match read with
  | .error fault => .error fault
  | .ok (token, rest) =>
    if endsWord (peek rest) then .ok (token, rest) else .error .malformed

/-- The character may follow the name of an anchor or alias. -/
def endsName : Option CodePoint → Bool
  | none => true
  | some c => endsToken (some c) || (['?', ':', ',', ']', '}', '%', '@', '\x60'] : Text).contains c

/-- The name behind the sign of an anchor or alias. -/
def reference (s : Spots) : Except DataFault (Text × Spots) :=
  match name? s with
  | .error fault => .error fault
  | .ok (name, rest) => if endsName (peek rest) then .ok (name, rest) else .error .malformed

/-- The digits of a version number, of which there is at least one. -/
def versionNumber (s : Spots) : Except DataFault (Nat × Spots) :=
  let digits := textOf (s.takeWhile fun x => x.char.isDigit)
  if digits.isEmpty then .error .malformed
  else if Number.digitLimit < digits.length then .error (.integerTooLong digits.length)
  else .ok (Number.decimalValue digits, s.dropWhile fun x => x.char.isDigit)

/-- The content of a directive behind its name. -/
def directiveBody (name : Text) (s : Spots) : Except DataFault (Directive × Spots) :=
  if name = "YAML" then
    match versionNumber (skipSpaces s) with
    | .error fault => .error fault
    | .ok (major, rest) =>
      if nextIs '.' rest then
        match versionNumber (rest.drop 1) with
        | .error fault => .error fault
        | .ok (_, rest) =>
          if endsWord (peek rest) then .ok (.version major, rest) else .error .malformed
      else .error .malformed
  else if name = "TAG" then
    match tagHandle (skipSpaces s) with
    | .error fault => .error fault
    | .ok (handle, rest) =>
      if nextIs ' ' rest then
        match uri (skipSpaces rest) with
        | .error fault => .error fault
        | .ok (t, rest) =>
          if endsWord (peek rest) then .ok (.tag handle t, rest) else .error .malformed
      else .error .malformed
  else .ok (.reserved, skipLine s)

/-- A directive behind its percent sign, up to the end of its line. -/
def directive (s : Spots) : Except DataFault (Token × Spots) :=
  match name? s with
  | .error fault => .error fault
  | .ok (name, rest) =>
    if endsWord (peek rest) then
      match directiveBody name rest with
      | .error fault => .error fault
      | .ok (d, rest) => (emptyLine rest).map fun rest => (.directive d, rest)
    else .error .malformed

/-! ## The next token -/

/-- A state of the scanner and the rest of the document. -/
abbrev Scanned := Except DataFault (Scan × Spots)

/-- The token of a sign between two parts of the document, at the start of a line. -/
def documentMark (token : Token) (s : Scan) (rest : Spots) : Scanned :=
  (Scan.dropKey (s.unwind (-1))).map fun s =>
    (({ s with mayBeKey := false } : Scan).add token, rest.drop 3)

/-- The opening bracket of a flow collection. -/
def openFlow (token : Token) (here : Spot) (s : Scan) (rest : Spots) : Scanned :=
  (s.markKey here).map fun s =>
    (({ s with keyStart := none, outerKeys := s.keyStart :: s.outerKeys, mayBeKey := true } :
      Scan).add token, rest)

/-- The closing bracket of a flow collection. -/
def closeFlow (token : Token) (s : Scan) (rest : Spots) : Scanned :=
  match s.dropKey, s.outerKeys with
  | .error fault, _ => .error fault
  | .ok _, [] => .error .malformed
  | .ok s, keyStart :: outerKeys =>
    .ok (({ s with keyStart, outerKeys, mayBeKey := false } : Scan).add token, rest)

/-- The comma in a flow collection. -/
def flowEntry (s : Scan) (rest : Spots) : Scanned :=
  (Scan.dropKey { s with mayBeKey := true }).map fun s => (s.add .flowEntry, rest)

/-- The sign of an entry, key or value that begins a collection of the block unless it belongs
to one, where a key may begin. -/
def blockIndicator (opening token : Token) (here : Spot) (s : Scan) (rest : Spots) : Scanned :=
  if s.inFlow then (Scan.dropKey { s with mayBeKey := false }).map fun s => (s.add token, rest)
  else if s.mayBeKey then
    let s := match s.deepen? here.column with
      | some s => s.add opening
      | none => s
    s.dropKey.map fun s => (s.add token, rest)
  else .error .malformed

/-- The hyphen of an entry. -/
def blockEntry (here : Spot) (s : Scan) (rest : Spots) : Scanned :=
  (blockIndicator .blockSequenceStart .blockEntry here s rest).map fun (s, rest) =>
    ({ s with mayBeKey := true }, rest)

/-- The colon of a value, which makes a possible key one. -/
def valueIndicator (here : Spot) (s : Scan) (rest : Spots) : Scanned :=
  match s.keyStart with
  | none => blockIndicator .blockMappingStart .value here s rest
  | some k =>
    let s : Scan := { s with keyStart := none, mayBeKey := false }
    let keyed := s.insertAt k.tokens .key
    let opened :=
      if s.inFlow then keyed
      else match keyed.deepen? k.spot.column with
        | some deeper => deeper.insertAt k.tokens .blockMappingStart
        | none => keyed
    .ok (opened.add .value, rest)

/-- A token that may be a simple key, read by `read`. -/
def simple (here : Spot) (s : Scan) (read : Except DataFault (Token × Spots)) : Scanned :=
  match s.markKey here, read with
  | .error fault, _ => .error fault
  | _, .error fault => .error fault
  | .ok s, .ok (token, rest) => .ok (({ s with mayBeKey := false } : Scan).add token, rest)

/-- A plain scalar. -/
def plainToken (here : Spot) (s : Scan) (rest : Spots) : Scanned :=
  (s.markKey here).map fun s =>
    let read := plainFrom s.inFlow (s.indent + 1) none rest
    (({ s with mayBeKey := read.crossed } : Scan).add (.scalar read.text true), read.rest)

/-- A block scalar behind its opening sign. -/
def blockToken (folded : Bool) (s : Scan) (rest : Spots) : Scanned :=
  match Scan.dropKey { s with mayBeKey := true }, block folded s.indent rest with
  | .error fault, _ => .error fault
  | _, .error fault => .error fault
  | .ok s, .ok (t, rest) => .ok (s.add (.scalar t false), rest)

/-- A plain scalar can begin with the character. -/
def opensPlain (flow : Bool) (c : CodePoint) (next : Option CodePoint) : Bool :=
  (!endsToken (some c) &&
    !("-?:,[]\x7b\x7d#&*!|>'\"%@\x60" : Text).contains c)
    || (!endsToken next && (c == '-' || (!flow && (c == '?' || c == ':'))))

/-- The token that begins with the character `here`, in front of `rest`. -/
def tokenAt (s : Scan) (here : Spot) (rest : Spots) : Scanned :=
  let c := here.char
  let next := peek rest
  let whole := here :: rest
  if c = '%' ∧ here.column = 0 then
    match Scan.dropKey (s.unwind (-1)), directive rest with
    | .error fault, _ => .error fault
    | _, .error fault => .error fault
    | .ok s, .ok (token, rest) => .ok (({ s with mayBeKey := false } : Scan).add token, rest)
  else if here.column = 0 ∧ isMark '-' whole then documentMark .documentStart s whole
  else if here.column = 0 ∧ isMark '.' whole then documentMark .documentEnd s whole
  else if c = '[' then openFlow .flowSequenceStart here s rest
  else if c = '{' then openFlow .flowMappingStart here s rest
  else if c = ']' then closeFlow .flowSequenceEnd s rest
  else if c = '}' then closeFlow .flowMappingEnd s rest
  else if c = ',' then flowEntry s rest
  else if c = '-' ∧ endsToken next then blockEntry here s rest
  else if c = '?' ∧ (s.inFlow ∨ endsToken next) then
    blockIndicator .blockMappingStart .key here s rest
  else if c = ':' ∧ (s.inFlow ∨ endsToken next) then valueIndicator here s rest
  else if c = '*' then
    simple here s ((reference rest).map fun (name, rest) => (.reference name, rest))
  else if c = '&' then
    simple here s ((reference rest).map fun (name, rest) => (.anchor name, rest))
  else if c = '!' then simple here s (tagToken whole)
  else if c = '|' ∧ s.inFlow = false then blockToken false s rest
  else if c = '>' ∧ s.inFlow = false then blockToken true s rest
  else if c = '\'' then
    simple here s ((quoted false rest).map fun (t, rest) => (.scalar t false, rest))
  else if c = '"' then
    simple here s ((quoted true rest).map fun (t, rest) => (.scalar t false, rest))
  else if opensPlain s.inFlow c next then plainToken here s whole
  else .error .malformed

/-- The rest behind spaces, comments and line ends, and whether a line end was among them. -/
def skipToToken : (comment : Bool) → Spots → Bool × Spots
  | _, [] => (false, [])
  | comment, x :: t =>
    if isBreak x.char then (true, (skipToToken false t).2)
    else if comment || x.char == '#' then skipToToken true t
    else if x.char = ' ' then skipToToken false t
    else (false, x :: t)

/-- The scanner behind the last token of the document. -/
def finish (s : Scan) : Except DataFault Scan := Scan.dropKey (s.unwind (-1))

/-- The tokens with a fault behind the last one that is settled. While a key is possible, its
tokens are not: a mark may come in front of them. -/
def Scan.fail (s : Scan) (fault : DataFault) : List Token :=
  let unsettled := (s.keyStart :: s.outerKeys).filterMap fun k => k.map KeyStart.tokens
  (s.insertAt (unsettled.foldl min s.tokens.length) (.fault fault)).tokens

/-- Reads at most `fuel` tokens; the tokens of a document that cannot be read hold a fault. -/
def tokensFrom : (fuel : Nat) → Scan → Spots → List Token
  | 0, s, _ => s.tokens
  | fuel + 1, s, spots =>
    let (crossed, rest) := skipToToken false spots
    let s := if crossed && !s.inFlow then { s with mayBeKey := true } else s
    match rest with
    | [] =>
      match finish s with
      | .ok s => s.tokens
      | .error fault => s.fail fault
    | here :: rest =>
      match Scan.dropStale here s with
      | .error fault => s.fail fault
      | .ok s =>
        match tokenAt (s.unwind here.column) here rest with
        | .error fault => s.fail fault
        | .ok (s, rest) => tokensFrom fuel s rest

/-- The rest behind a byte order mark, if there is one. -/
def dropOrderMark (s : Spots) : Spots := if nextIs '\uFEFF' s then s.drop 1 else s

/-- The tokens of a document. -/
def Token.ofText (t : Text) : List Token :=
  if t.all isAllowed then
    (tokensFrom (t.length + 1) Scan.start (dropOrderMark (locate t))).reverse
  else [.fault .malformed]

end ModuleAtlas.Yaml
