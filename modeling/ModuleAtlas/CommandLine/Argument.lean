import ModuleAtlas.Text.Encoding
/-!
What the arguments of a command line are, each taken by itself: plain, a switch, or the divider
behind which all are plain. A long name may be shortened as long as it is unambiguous, and a
value may follow an equals sign or, behind a short name, the name itself.
-/
namespace ModuleAtlas.CommandLine

/-! ## Switches -/

/-- The switches. -/
inductive Switch
  | help | output | format | style | imports | save | dataDirectory | strict | verbose
deriving DecidableEq, Repr

namespace Switch

/-- The names of a switch, the short one first. -/
def names : Switch → List Text
  | help => ["-h", "--help"]
  | output => ["-o", "--output"]
  | format => ["-f", "--format"]
  | style => ["--ascii-style"]
  | imports => ["--show-imports"]
  | save => ["--save"]
  | dataDirectory => ["--data-dir"]
  | strict => ["--strict"]
  | verbose => ["-v", "--verbose"]

/-- All switches in their order. -/
def all : List Switch :=
  [help, output, format, style, imports, save, dataDirectory, strict, verbose]

/-- All names with their switches, in order. -/
def table : List (Text × Switch) := all.flatMap fun switch => switch.names.map (·, switch)

/-- The switch of a name. -/
def named? (name : Text) : Option Switch :=
  (table.find? fun entry => entry.1 == name).map Prod.snd

/-- The switch is followed by a value. -/
def takesValue : Switch → Bool
  | output | format | style | dataDirectory => true
  | _ => false

/-- The values that a switch may have, if not all. -/
def choices : Switch → List Text
  | format => ["json", "tree"]
  | style => ["tree", "ascii"]
  | _ => []

/-- A switch by its names. -/
def title (switch : Switch) : Text := Text.joinWith ['/'] switch.names

end Switch

/-! ## Arguments -/

/-- Why a command line is refused. -/
inductive UsageFault
  /-- Several switches have a name that begins like this. -/
  | ambiguous (argument : Text) (names : List Text)
  /-- A switch that takes no value is given one. -/
  | unexpectedValue (switch : Switch) (value : Text)
  /-- A switch lacks its value. -/
  | missingValue (switch : Switch)
  /-- The value of a switch is none of its choices. -/
  | choice (switch : Switch) (value : Text)
  /-- There are arguments that mean nothing. -/
  | unrecognized (arguments : List Text)
deriving DecidableEq, Repr

namespace UsageFault

/-- What is said about a switch. -/
def about (switch : Switch) (words : Text) : Text :=
  "argument " ++ switch.title ++ ": " ++ words

/-- What is said about a refused command line. -/
def message : UsageFault → Text
  | ambiguous argument names =>
    "ambiguous option: " ++ argument ++ " could match " ++ Text.joinWith [',', ' '] names
  | unexpectedValue switch value =>
    about switch ("ignored explicit argument " ++ Text.quoted value)
  | missingValue switch => about switch "expected one argument"
  | choice switch value =>
    about switch (("invalid choice: " : Text) ++ Text.quoted value ++ (" (choose from " : Text)
      ++ Text.joinWith [',', ' '] (switch.choices.map Text.quoted) ++ [.scalar ')'])
  | unrecognized arguments => "unrecognized arguments: " ++ Text.joinWith [' '] arguments

end UsageFault

/-- A value that is attached to the name of a switch. -/
structure Attached where
  /-- An equals sign stands before the value. -/
  equals : Bool
  value : Text
deriving DecidableEq, Repr

/-- One argument of a command line. -/
inductive Argument
  | plain (t : Text)
  | divider
  | switch (name : Text) (switch : Switch) (attached : Option Attached)
  /-- A switch that there is not. -/
  | unknown (t : Text)
deriving DecidableEq, Repr

namespace Argument

/-- The argument cut at its first equals sign. -/
def cut (t : Text) : Text × Option Attached :=
  match Text.cutAt? ['='] t with
  | some (name, value) => (name, some ⟨true, value⟩)
  | none => (t, none)

/-- What an argument with two hyphens can be: all switches whose names begin like it. -/
def longReadings (t : Text) : List Argument :=
  let (head, attached) := cut t
  (Switch.table.filter fun entry => Text.startsWith entry.1 head).map fun (name, s) =>
    switch name s attached

/-- What an argument with one hyphen can be: a short name with a value behind it, or the
beginning of a name. -/
def shortReadings (t : Text) : List Argument :=
  Switch.table.filterMap fun (name, s) =>
    if name = t.take 2 then some (switch name s (some ⟨false, t.drop 2⟩))
    else if Text.startsWith name t then some (switch name s none)
    else none

/-- The character is a decimal digit. -/
def isDigit (c : CodePoint) : Bool := (Text.digit? c).isSome

/-- The text is a negative number, perhaps with a line feed behind it. -/
def isNegativeNumber (t : Text) : Bool :=
  match t with
  | '-' :: t =>
    let t := if t.getLast? == some (.scalar '\n') then t.dropLast else t
    let rest := t.dropWhile isDigit
    (rest.isEmpty && !t.isEmpty) ||
      (match rest with
        | '.' :: fraction => !fraction.isEmpty && fraction.all isDigit
        | _ => false)
  | _ => false

/-- The name of a switch. -/
def name : Argument → Text
  | switch name _ _ => name
  | _ => []

/-- An argument that begins with a hyphen and is no name as it stands. -/
def ofReadings (t : Text) : Except UsageFault Argument :=
  match if t.take 2 = (['-', '-'] : Text) then longReadings t else shortReadings t with
  | [reading] => .ok reading
  | [] => .ok (if isNegativeNumber t || t.contains ' ' then plain t else unknown t)
  | readings => .error (.ambiguous t (readings.map name))

/-- The argument that a text is. -/
def ofText (t : Text) : Except UsageFault Argument :=
  if t = (['-', '-'] : Text) then .ok divider
  else if t.head? ≠ some (.scalar '-') then .ok (plain t)
  else match Switch.named? t with
    | some s => .ok (switch t s none)
    | none =>
      if t.length = 1 then .ok (plain t)
      else match cut t with
        | (head, some attached) =>
          match Switch.named? head with
          | some s => .ok (switch head s (some attached))
          | none => ofReadings t
        | (_, none) => ofReadings t

/-- The arguments that texts are; behind a divider all are plain. -/
def ofTexts : List Text → Except UsageFault (List Argument)
  | [] => .ok []
  | t :: ts =>
    match ofText t with
    | .error fault => .error fault
    | .ok divider => .ok (divider :: ts.map plain)
    | .ok argument => (ofTexts ts).map (argument :: ·)

end Argument

end ModuleAtlas.CommandLine
