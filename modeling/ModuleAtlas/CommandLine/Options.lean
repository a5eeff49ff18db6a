import ModuleAtlas.CommandLine.Argument
/-!
From arguments to options. Switches act in their order, and the last value of one counts. The
first plain argument that no switch takes is the root of the project.
-/
namespace ModuleAtlas.CommandLine

/-- What the command line asks for. -/
structure Options where
  root : Text := [.scalar '.']
  output : Option Text := none
  drawn : Bool := false
  plainStrokes : Bool := false
  showImports : Bool := false
  save : Bool := false
  dataDirectory : Option Text := none
  strict : Bool := false
  verbosity : Nat := 0
deriving DecidableEq, Repr

/-- Why reading a command line ends early. -/
inductive Stop
  | help
  | refused (fault : UsageFault)
deriving DecidableEq, Repr

/-- A switch with the value that it has been given. -/
abbrev Setting := Switch × Text

/-- The options after a setting. -/
def Options.apply (options : Options) (setting : Setting) : Except Stop Options :=
  let (switch, value) := setting
  if !switch.choices.isEmpty && !switch.choices.contains value then
    .error (.refused (.choice switch value))
  else match switch with
    | .help => .error .help
    | .output => .ok { options with output := some value }
    | .format => .ok { options with drawn := value = ("tree" : Text) }
    | .style => .ok { options with plainStrokes := value = ("ascii" : Text) }
    | .imports => .ok { options with showImports := true }
    | .save => .ok { options with save := true }
    | .dataDirectory => .ok { options with dataDirectory := some value }
    | .strict => .ok { options with strict := true }
    | .verbose => .ok { options with verbosity := options.verbosity + 1 }

/-- What one argument sets by itself. -/
structure Cluster where
  settings : List Setting := []
  /-- A switch at the end that takes the next argument for its value. -/
  wanting : Option Switch := none
  /-- What means nothing. -/
  extra : Option Text := none
deriving DecidableEq, Repr

/-- The cluster with one more switch in front. -/
def Cluster.after (switch : Switch) (cluster : Cluster) : Cluster :=
  { cluster with settings := (switch, []) :: cluster.settings }

/-- A switch without anything attached. -/
def Cluster.ofSwitch (switch : Switch) : Cluster :=
  if switch.takesValue then { wanting := some switch } else { settings := [(switch, [])] }

/-- A switch with a text attached to its short name: its value, or more short names. -/
def Cluster.ofShort (switch : Switch) (equals : Bool) : Text → Except UsageFault Cluster
  | [] =>
    if switch.takesValue then .ok { settings := [(switch, [])] }
    else .error (.unexpectedValue switch [])
  | c :: rest =>
    if switch.takesValue then .ok { settings := [(switch, c :: rest)] }
    else if equals || c == '-' then .error (.unexpectedValue switch (c :: rest))
    else match Switch.named? [.scalar '-', c], rest with
      | none, _ => .ok { settings := [(switch, [])], extra := some (.scalar '-' :: c :: rest) }
      | some next, [] => .ok ((Cluster.ofSwitch next).after switch)
      | some next, '=' :: value => (ofShort next true value).map (after switch)
      | some next, d :: rest => (ofShort next false (d :: rest)).map (after switch)

/-- What a switch with its attached value sets. -/
def Cluster.of (name : Text) (switch : Switch) :
    Option Attached → Except UsageFault Cluster
  | none => .ok (ofSwitch switch)
  | some attached =>
    if switch.takesValue then .ok { settings := [(switch, attached.value)] }
    else if Text.startsWith name ['-', '-'] then
      .error (.unexpectedValue switch attached.value)
    else ofShort switch attached.equals attached.value

/-- What has been read of a command line: the options, whether the root has been given, and the
arguments that mean nothing. -/
structure Progress where
  options : Options := {}
  rooted : Bool := false
  extras : List Text := []
deriving DecidableEq, Repr

namespace Progress

/-- Applies settings one after the other. -/
def set (progress : Progress) (settings : List Setting) : Except Stop Progress :=
  (settings.foldlM Options.apply progress.options).map fun options =>
    { progress with options := options }

/-- Takes the root. -/
def withRoot (progress : Progress) (root : Text) : Progress :=
  { progress with options := { progress.options with root := root }, rooted := true }

/-- Takes arguments that mean nothing. -/
def withExtras (progress : Progress) (ts : List Text) : Progress :=
  { progress with extras := progress.extras ++ ts }

end Progress

/-- Reads arguments one after the other. A divider counts for nothing before the root and right
behind it, and is one argument too many elsewhere. -/
def read : List Argument → Progress → Except Stop Progress
  | [], progress => .ok progress
  | .plain t :: .divider :: rest, progress =>
    read rest (if progress.rooted then progress.withExtras [t, (['-', '-'] : Text)]
      else progress.withRoot t)
  | .plain t :: rest, progress =>
    read rest (if progress.rooted then progress.withExtras [t] else progress.withRoot t)
  | .divider :: rest, progress =>
    read rest (if progress.rooted then progress.withExtras [(['-', '-'] : Text)] else progress)
  | .unknown t :: rest, progress => read rest (progress.withExtras [t])
  | .switch name switch attached :: rest, progress =>
    match Cluster.of name switch attached with
    | .error fault => .error (.refused fault)
    | .ok cluster =>
      match cluster.wanting with
      | none =>
        match progress.set cluster.settings with
        | .error stop => .error stop
        | .ok progress => read rest (progress.withExtras cluster.extra.toList)
      | some wanting =>
        match rest with
        | .plain value :: rest =>
          match progress.set (cluster.settings ++ [(wanting, value)]) with
          | .error stop => .error stop
          | .ok progress => read rest progress
        | _ => .error (.refused (.missingValue wanting))

/-- The options of a command line. -/
def Options.ofTexts (arguments : List Text) : Except Stop Options :=
  match Argument.ofTexts arguments with
  | .error fault => .error (.refused fault)
  | .ok arguments =>
    match read arguments {} with
    | .error stop => .error stop
    | .ok progress =>
      if progress.extras.isEmpty then .ok progress.options
      else .error (.refused (.unrecognized progress.extras))

/-! ## Help -/

/-- The name of the command. -/
def command : Text := "reactmap"

/-- The forms of the command. -/
def usageLines : List Text :=
  ["usage: reactmap [-h] [-o OUTPUT] [-f \x7bjson,tree\x7d] [--ascii-style \x7btree,ascii\x7d]",
   "                [--show-imports] [--save] [--data-dir DATA_DIR] [--strict]",
   "                [-v]",
   "                [root]"]

/-- What the arguments and switches mean. -/
def meaningLines : List Text :=
  ["positional arguments:",
   "  root                  Project root directory (default: current directory)",
   "",
   "options:",
   "  -h, --help            show this help message and exit",
   "  -o OUTPUT, --output OUTPUT",
   "                        Output file (default: stdout)",
   "  -f \x7bjson,tree\x7d, --format \x7bjson,tree\x7d",
   "                        Output format (default: json)",
   "  --ascii-style \x7btree,ascii\x7d",
   "                        Tree output style: 'tree' (Unicode) or 'ascii' (pure",
   "                        ASCII)",
   "  --show-imports        List each file's imports and importers in tree output",
   "  --save                Save the JSON graph as a new timestamped file in the",
   "                        data directory",
   "  --data-dir DATA_DIR   Directory for saved graphs (default:",
   "                        $REACTMAP_DATA_DIR or ~/.local/reactmap)",
   "  --strict              Abort the scan when a file cannot be read (default:",
   "                        skip it)",
   "  -v, --verbose         Increase log verbosity (-v info, -vv debug)"]

/-- Examples of commands. -/
def exampleLines : List Text :=
  ["Examples:",
   "  reactmap .                         # JSON graph of the current directory",
   "  reactmap ./app -f tree             # Directory tree with file roles",
   "  reactmap . -f tree --show-imports  # Tree with imports and importers",
   "  reactmap . -o graph.json           # JSON output to file",
   "  reactmap . --save                  # Also keep a timestamped copy",
   "  reactmap . --strict                # Abort on unreadable files",
   "        "]

/-- What the command does. -/
def purpose : Text :=
  "Scan a JavaScript/TypeScript project and generate its component and import graph."

/-- The help of the command. -/
def helpLines : List Text :=
  usageLines ++ [[], purpose, []] ++ meaningLines ++ [[]] ++ exampleLines

/-- What is said when a command line is refused. -/
def refusalLines (fault : UsageFault) : List Text :=
  usageLines ++ [command ++ ": error: " ++ fault.message]

end ModuleAtlas.CommandLine
