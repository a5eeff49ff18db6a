import ModuleAtlas.Configuration.Value
import ModuleAtlas.Yaml.Spot
/-!
The three ways of writing a scalar: plain, in quotes, and as a block of lines. Line ends inside
a scalar are folded: a single one becomes a space, and of several the first is dropped.
-/
namespace ModuleAtlas.Yaml

/-! ## Plain scalars -/

/-- The blanks and line ends between two words of a scalar. -/
structure Gap where
  /-- The spaces before the first line end. -/
  spaces : Nat
  /-- The first line end, if there is one. -/
  first : Option CodePoint
  /-- The further line ends. -/
  more : Text

/-- What a gap stands for between two words. -/
def Gap.text (gap : Gap) : Text :=
  match gap.first with
  | none => List.replicate gap.spaces ' '
  | some c => (if c ≠ '\n' then [c] else if gap.more.isEmpty then [' '] else []) ++ gap.more

/-- The gap with another line end. -/
def Gap.break (gap : Gap) (c : CodePoint) : Gap :=
  match gap.first with
  | none => { gap with first := some (breakText c) }
  | some _ => { gap with more := gap.more ++ [breakText c] }

/-- A plain scalar ends before the character `c`, which `next` follows. -/
def stopsPlain (flow : Bool) (c : CodePoint) (next : Option CodePoint) : Bool :=
  endsToken (some c)
    || (c == ':' && (endsToken next || (flow && next.any ([',', '[', ']', '{', '}'] : Text).contains)))
    || (flow && ([',', '?', '[', ']', '{', '}'] : Text).contains c)

/-- What is read of a plain scalar: its text, whether its last gap crosses the end of a line,
and the rest. -/
structure Plain where
  text : Text
  crossed : Bool
  rest : Spots

/-- The scalar with more text in front. -/
def Plain.after (t : Text) (p : Plain) : Plain := { p with text := t ++ p.text }

/-- Reads a plain scalar on, inside a word or in a gap. In the block context it ends before a
line that is indented less than `indent`. -/
def plainFrom (flow : Bool) (indent : Int) : Option Gap → Spots → Plain
  | gap, [] => ⟨[], (gap.map (·.first.isSome)).getD false, []⟩
  | none, s :: t =>
    if !stopsPlain flow s.char (peek t) then (plainFrom flow indent none t).after [s.char]
    else if s.char = ' ' then plainFrom flow indent (some ⟨1, none, []⟩) t
    else if isBreak s.char then
      if isSeparator t then ⟨[], true, t⟩
      else plainFrom flow indent (some ⟨0, some (breakText s.char), []⟩) t
    else ⟨[], false, s :: t⟩
  | some gap, s :: t =>
    if s.char = ' ' then
      plainFrom flow indent (some { gap with spaces := gap.spaces + 1 }) t
    else if isBreak s.char then
      if isSeparator t then ⟨[], true, t⟩ else plainFrom flow indent (some (gap.break s.char)) t
    else if s.char = '#' ∨ (flow = false ∧ (s.column : Int) < indent)
        ∨ stopsPlain flow s.char (peek t) then
      ⟨[], gap.first.isSome, s :: t⟩
    else (plainFrom flow indent none t).after (gap.text ++ [s.char])

/-! ## Quoted scalars -/

/-- Where the reader of a quoted scalar is. -/
inductive Quoting
  | text
  /-- At a character that belongs to the one before. -/
  | second
  | blanks (t : Text)
  /-- Behind line ends; an escaped first one is left out. -/
  | breaks (first : Option CodePoint) (more : Text)
  | escape
  /-- In the digits of an escape. -/
  | code (digits value : Nat)

/-- What the blanks and line ends before the next character stand for. -/
def Quoting.gap : Quoting → Text
  | blanks t => t
  | breaks (some c) more =>
    (if c ≠ '\n' then [c] else if more.isEmpty then [' '] else []) ++ more
  | breaks none more => more
  | _ => []

/-- The place behind another blank. -/
def Quoting.blank (c : CodePoint) : Quoting → Quoting
  | blanks t => blanks (t ++ [c])
  | breaks first more => breaks first more
  | _ => blanks [c]

/-- The place behind another line end. -/
def Quoting.break (c : CodePoint) : Quoting → Quoting
  | breaks first more => breaks first (more ++ [breakText c])
  | _ => breaks (some (breakText c)) []

/-- The character that a letter behind a backslash stands for. -/
def escaped? (c : CodePoint) : Option Nat :=
  match c with
  | '0' => some 0
  | 'a' => some 7
  | 'b' => some 8
  | 't' => some 9
  | '\t' => some 9
  | 'n' => some 10
  | 'v' => some 11
  | 'f' => some 12
  | 'r' => some 13
  | 'e' => some 27
  | ' ' => some 32
  | '"' => some 34
  | '\\' => some 92
  | '/' => some 47
  | 'N' => some 0x85
  | '_' => some 0xA0
  | 'L' => some 0x2028
  | 'P' => some 0x2029
  | _ => none

/-- The number of digits behind a letter that announces a code point. -/
def codeDigits? (c : CodePoint) : Option Nat :=
  match c with
  | 'x' => some 2
  | 'u' => some 4
  | 'U' => some 8
  | _ => none

/-- The code point with a number, if there is one. -/
def codePoint (n : Nat) : Except DataFault CodePoint :=
  if n < 0x110000 then .ok (.ofNat n)
  else if n < 0x80000000 then .error .codePoint
  else .error .codePointOverflow

/-- What is read of a quoted scalar, with more in front. -/
def inFront (text : Text) (read : Except DataFault (Text × Spots)) :
    Except DataFault (Text × Spots) :=
  read.map fun (more, rest) => (text ++ more, rest)

/-- Reads a quoted scalar on, up to its closing quote: its text and the rest. The two surrogates of
a pair stay two code points. -/
def quotedFrom (double : Bool) : Quoting → Spots → Except DataFault (Text × Spots)
  | _, [] => .error .malformed
  | .second, _ :: t => quotedFrom double .text t
  | .escape, s :: t =>
    match escaped? s.char, codeDigits? s.char with
    | some n, _ => inFront [.ofNat n] (quotedFrom double .text t)
    | none, some digits => quotedFrom double (.code digits 0) t
    | none, none =>
      if isBreak s.char ∧ isSeparator t = false then quotedFrom double (.breaks none []) t
      else .error .malformed
  | .code digits value, s :: t =>
    match Text.hexDigit? s.char with
    | none => .error .malformed
    | some d =>
      if digits ≤ 1 then
        match codePoint (value * 16 + d) with
        | .ok c => inFront [c] (quotedFrom double .text t)
        | .error fault => .error fault
      else quotedFrom double (.code (digits - 1) (value * 16 + d)) t
  | place, s :: t =>
    if s.char = ' ' ∨ s.char = '\t' then quotedFrom double (place.blank s.char) t
    else if isBreak s.char then
      if isSeparator t then .error .malformed else quotedFrom double (place.break s.char) t
    else
      let gap := place.gap
      if double then
        if s.char = '"' then .ok (gap, t)
        else if s.char = '\\' then inFront gap (quotedFrom double .escape t)
        else inFront (gap ++ [s.char]) (quotedFrom double .text t)
      else if s.char = '\'' then
        if nextIs '\'' t then inFront (gap ++ [s.char]) (quotedFrom double .second t)
        else .ok (gap, t)
      else inFront (gap ++ [s.char]) (quotedFrom double .text t)

/-- Reads a quoted scalar behind its opening quote. -/
def quoted (double : Bool) (s : Spots) : Except DataFault (Text × Spots) :=
  quotedFrom double .text s

/-! ## Block scalars -/

/-- What becomes of the line ends at the end of a block scalar. -/
inductive Chomping
  | strip | clip | keep
deriving DecidableEq

/-- The sign for the line ends at the end of a block scalar. -/
def chomping? (c : CodePoint) : Option Chomping :=
  if c = '+' then some .keep else if c = '-' then some .strip else none

/-- The digit for the indentation of a block scalar. -/
def indentDigit? (c : CodePoint) : Option Nat :=
  if '0' ≤ c ∧ c ≤ '9' then some (c.toNat - '0'.toNat) else none

/-- Takes a character off the rest if `f` makes something of it. -/
def take? {α : Type} (f : CodePoint → Option α) (s : Spots) : Option α × Spots :=
  match s with
  | [] => (none, [])
  | x :: t => match f x.char with
    | some a => (some a, t)
    | none => (none, x :: t)

/-- The header of a block scalar: a sign and a digit in either order, both optional. -/
def blockHeader (s : Spots) : Except DataFault (Chomping × Option Nat × Spots) :=
  let (sign, s) := take? chomping? s
  let (digit, s) := take? indentDigit? s
  let (sign, s) := match sign with
    | some sign => (some sign, s)
    | none => if digit.isSome then take? chomping? s else (none, s)
  if digit = some 0 ∨ endsWord (peek s) = false then .error .malformed
  else .ok (sign.getD .clip, digit, s)

/-- The rest of a line that may hold a comment only, and its end. -/
def emptyLine (s : Spots) : Except DataFault Spots :=
  match skipComment (skipSpaces s) with
  | [] => .ok []
  | x :: t => if isBreak x.char then .ok t else .error .malformed

/-- The empty lines a block scalar opens with, and the deepest indentation up to its first
other line. -/
def leadingLines : Spots → Text × Nat × Spots
  | [] => ([], 0, [])
  | x :: t =>
    if x.char = ' ' then
      let (breaks, deepest, rest) := leadingLines t
      (breaks, max (x.column + 1) deepest, rest)
    else if isBreak x.char then
      let (breaks, deepest, rest) := leadingLines t
      (breakText x.char :: breaks, deepest, rest)
    else ([], 0, x :: t)

/-- The empty lines before the next line of a block scalar, whose indentation is taken off. -/
def emptyLines (indent : Nat) : Spots → Text × Spots
  | [] => ([], [])
  | x :: t =>
    if x.char = ' ' ∧ x.column < indent then emptyLines indent t
    else if isBreak x.char then
      let (breaks, rest) := emptyLines indent t
      (breakText x.char :: breaks, rest)
    else ([], x :: t)

/-- What is read of a block scalar: its lines, the end of the last one, the empty lines behind
it, and the rest. -/
structure Block where
  text : Text
  lastBreak : Text
  breaks : Text
  rest : Spots

/-- Two lines of a folded scalar are joined when neither opens with a blank. -/
def opensWithBlank (x : Spot) : Bool := x.char == ' ' || x.char == '\t'

/-- Reads at most `fuel` lines of a block scalar behind some empty lines. -/
def blockLines (folded : Bool) (indent : Nat) : (fuel : Nat) → (breaks : Text) → Spots → Block
  | 0, breaks, s => ⟨[], [], breaks, s⟩
  | _ + 1, breaks, [] => ⟨[], [], breaks, []⟩
  | fuel + 1, breaks, x :: t =>
    if x.column ≠ indent then ⟨[], [], breaks, x :: t⟩
    else
      let (lastBreak, behind) : Text × Spots := match skipLine (x :: t) with
        | b :: rest => ([breakText b.char], rest)
        | [] => ([], [])
      let (empties, next) := emptyLines indent behind
      let here := breaks ++ lineText (x :: t)
      match next with
      | [] => ⟨here, lastBreak, empties, []⟩
      | y :: rest =>
        if y.column ≠ indent then ⟨here, lastBreak, empties, y :: rest⟩
        else
          let joint : Text :=
            if folded && lastBreak == [.scalar '\n'] && !opensWithBlank x && !opensWithBlank y then
              if empties.isEmpty then [' '] else []
            else lastBreak
          let block := blockLines folded indent fuel empties (y :: rest)
          { block with text := here ++ joint ++ block.text }

/-- Reads a block scalar behind its opening sign, inside a collection indented by `indent`. -/
def block (folded : Bool) (indent : Int) (s : Spots) : Except DataFault (Text × Spots) :=
  match blockHeader s with
  | .error fault => .error fault
  | .ok (chomping, digit, s) =>
    match emptyLine s with
    | .error fault => .error fault
    | .ok s =>
      let least := (max (indent + 1) 1).toNat
      let (breaks, depth, rest) := match digit with
        | some digit =>
          let depth := least + digit - 1
          let (breaks, rest) := emptyLines depth s
          (breaks, depth, rest)
        | none =>
          let (breaks, deepest, rest) := leadingLines s
          (breaks, max least deepest, rest)
      let read := blockLines folded depth s.length breaks rest
      .ok (read.text
        ++ (if chomping = .strip then [] else read.lastBreak)
        ++ (if chomping = .keep then read.breaks else []), read.rest)

end ModuleAtlas.Yaml
