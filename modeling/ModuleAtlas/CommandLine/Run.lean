import ModuleAtlas.CommandLine.Options
import ModuleAtlas.Graph.Drawing
import ModuleAtlas.Saving
import ModuleAtlas.Scan
/-!
What the command does: it scans a project, saves the graph if that is asked for, and puts the
document or the drawing of the graph out, to a file or to the standard output. What it says
about its course goes to the standard error (`Result`).
-/
namespace ModuleAtlas.CommandLine

/-- Why a run breaks off without an exit code of its own. -/
inductive Breakdown
  | scan (fault : ScanFault)
  | file (fault : FileFault)
  /-- The home of the user is unknown. -/
  | homeless
  /-- A text has a surrogate and cannot be put out. -/
  | unencodable (t : Text)
deriving DecidableEq, Repr

/-- What a run of the command comes to: its exit code unless it breaks off, what it has put out and
said until then, and the files that it leaves. -/
structure Result where
  ending : Except Breakdown Nat
  output : Text := []
  errors : List Text := []
  files : FileSystem

/-- The lines, each with a line feed. -/
def ended (lines : List Text) : Text := lines.flatMap (· ++ [.scalar '\n'])

/-- The least level of the notices that are shown. -/
def Options.level (options : Options) : Level :=
  if 2 ≤ options.verbosity then .debug else if options.verbosity = 1 then .info else .warning

/-- The policy for files that cannot be read. -/
def Options.policy (options : Options) : ReadPolicy := if options.strict then .stop else .skip

/-- The text that is put out for a graph. -/
def Options.render (options : Options) (graph : Graph Text) : Text :=
  if options.drawn then
    graph.drawing (if options.plainStrokes then .plain else .box) options.showImports
  else graph.text (.indented 2)

/-- What a failed file operation comes to: the run ends with a message, but breaks off if no path
can be the one that was to be used. -/
def ofFault (files : FileSystem) (errors : List Text) (words : Text) (fault : FileFault) : Result :=
  if fault.cause.isIllegal then { ending := .error (.file fault), errors, files }
  else { ending := .ok 1, errors := errors ++ [words ++ fault.message], files }

/-- Puts the text of a graph out, after what has been said so far. A file for it is opened, and so is
made or emptied, before it turns out whether the text can be encoded. -/
def putOut (options : Options) (files : FileSystem) (errors : List Text) (text : Text) : Result :=
  match options.output with
  | some (c :: cs) =>
    let p := Path.clean (c :: cs)
    match files.write p ((Text.utf8? text).getD []) with
    | .ok files =>
      if text.IsScalar then
        { ending := .ok 0, errors := errors ++ ["Output written to: " ++ p], files }
      else { ending := .error (.unencodable text), errors, files }
    | .error fault => ofFault files errors "Error writing output: " fault
  | _ =>
    if text.IsScalar then { ending := .ok 0, output := text ++ [.scalar '\n'], errors, files }
    else { ending := .error (.unencodable text), errors, files }

/-- Goes on when the graph need not be saved, or has been. -/
def afterSaving (options : Options) (errors : List Text) (graph : Graph Text)
    (saved : FileSystem × Except FileFault Text) : Result :=
  let (files, outcome) := saved
  match outcome with
  | .ok p =>
    let said := Notice.lines options.level [.saved p] ++ ["Graph saved to: " ++ p]
    putOut options files (errors ++ said) (options.render graph)
  | .error fault => ofFault files errors "Error saving graph: " fault

/-- Goes on with the graph of a scan. -/
def finish (options : Options) (environment : Environment) (now : Moment) (files : FileSystem)
    (errors : List Text) (graph : Graph Text) : Result :=
  if options.save then
    match options.dataDirectory.orElse fun _ => environment.saveDirectory? with
    | none => { ending := .error .homeless, errors, files }
    | some directory => afterSaving options errors graph (Saving.save files directory now graph)
  else putOut options files errors (options.render graph)

/-- Scans the project that the options name, and goes on with its graph. -/
def execute (options : Options) (environment : Environment) (now : Moment) (files : FileSystem) :
    Result :=
  match (files.realPath options.root).bind fun root =>
      (files.isDirectory root).map (root, ·) with
  | .error fault => { ending := .error (.file fault), files }
  | .ok (_, false) =>
    { ending := .ok 1, errors := ["Error: '" ++ options.root ++ "' is not a directory"], files }
  | .ok (root, true) =>
    let scan := Scan.ofPath files options.policy {} root
    let told := Notice.lines options.level scan.notices
    match scan.graph with
    | .ok graph => finish options environment now files told graph
    | .error fault =>
      if fault.isOfProject then
        { ending := .ok 1, errors := told ++ ["Error scanning project: " ++ fault.message], files }
      else { ending := .error (.scan fault), errors := told, files }

/-- Runs the command with its arguments. -/
def run (arguments : List Text) (environment : Environment) (now : Moment) (files : FileSystem) :
    Result :=
  match Options.ofTexts arguments with
  | .ok options => execute options environment now files
  | .error .help => { ending := .ok 0, output := ended helpLines, files }
  | .error (.refused fault) => { ending := .ok 2, errors := refusalLines fault, files }

end ModuleAtlas.CommandLine
