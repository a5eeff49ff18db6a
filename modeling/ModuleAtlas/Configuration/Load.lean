import ModuleAtlas.Configuration.Aliases
import ModuleAtlas.Configuration.Document
import ModuleAtlas.Configuration.Script
import ModuleAtlas.FileTree.Access
import ModuleAtlas.FileTree.Walk
import ModuleAtlas.Notice
/-!
Finding the import settings of a project. Configuration files are tried in a fixed order: the
first document that is a mapping has the last word, scripts before it contribute what they
show, and a project without settings whose sources stand in `src` has that as its base
directory. A compiler configuration may extend others; of an option set several times the
nearest setting counts.
-/
namespace ModuleAtlas

/-- Why the settings of a project cannot be found. -/
inductive SettingsFault
  | data (fault : DataFault)
  | file (fault : FileFault)
deriving DecidableEq, Repr

/-- What is said about settings that cannot be found. -/
def SettingsFault.message : SettingsFault → Text
  | data fault => fault.message
  | file fault => fault.message

namespace Configuration

/-! ## One file -/

/-- The text of a configuration file, unless it cannot be read as one. -/
def content? (files : FileSystem) (p : Text) : Except SettingsFault (Option Text) :=
  match files.text? p with
  | .ok content => .ok content
  | .error fault => if fault.cause.isIllegal then .error (.file fault) else .ok none

/-- The entries of the mapping that a configuration file is, if it is one. -/
def document? (files : FileSystem) (p : Text) :
    Except SettingsFault (Option (List (Value × Value))) :=
  match content? files p with
  | .error fault => .error fault
  | .ok none => .ok none
  | .ok (some content) => (readDocument content).mapError .data

/-- The settings after a script file has been read. -/
def script (files : FileSystem) (p : Text) (settings : Settings) :
    Except SettingsFault Settings :=
  (content? files p).map fun content =>
    match content with
    | some content => readScript content settings
    | none => settings

/-! ## Extended configurations -/

/-- The most configurations that one extends, directly or through others. -/
def ancestorLimit : Nat := 6

/-- The real path of the file that the configuration at `p` extends: a path relative to it,
with or without its extension. -/
def extended? (files : FileSystem) (p : Text) (value : Option Value) :
    Except FileFault (Option Text) :=
  match value with
  | some (.text target) =>
    if Text.startsWith target "./" || Text.startsWith target "../" then
      let target := if Text.endsWith target ".json" then target else target ++ ".json"
      (files.realPath (Path.child (Path.parent p) target)).bind fun real =>
        (files.isFile real).map fun isFile => if isFile then some real else none
    else .ok none
  | _ => .ok none

/-- The entries of the configurations that one extends, the nearest first. The chain ends at a
file that has been visited, does not exist or is no mapping. -/
def ancestors (files : FileSystem) :
    Nat → (visited : List Text) → (p : Text) → List (Value × Value) →
      Except SettingsFault (List (List (Value × Value)))
  | 0, _, _, _ => .ok []
  | limit + 1, visited, p, entries =>
    match extended? files p (Value.lookup? entries "extends") with
    | .error fault => .error (.file fault)
    | .ok none => .ok []
    | .ok (some parent) =>
      if visited.contains parent then .ok []
      else match document? files parent with
        | .error fault => .error fault
        | .ok none => .ok []
        | .ok (some entries) =>
          (ancestors files limit (parent :: visited) parent entries).map (entries :: ·)

/-- The compiler options that one configuration sets itself. -/
def ownOptions (entries : List (Value × Value)) : List (Value × Value) :=
  match Value.lookup? entries "compilerOptions" with
  | some (.map options) => options
  | _ => []

/-- The compiler options of a chain of configurations, the nearest first. -/
def mergedOptions (chain : List (List (Value × Value))) : List (Value × Value) :=
  Value.entriesOf (chain.reverse.flatMap ownOptions)

/-- The compiler options of the configuration at `p` with those it extends. -/
def compilerOptions (files : FileSystem) (p : Text) (entries : List (Value × Value)) :
    Except SettingsFault (List (Value × Value)) :=
  match files.realPath p with
  | .error fault => .error (.file fault)
  | .ok real =>
    (ancestors files ancestorLimit [real] p entries).map fun chain =>
      mergedOptions (entries :: chain)

/-! ## The search -/

/-- The kinds of configuration files. -/
inductive Kind
  | compiler | script | transpiler | package
deriving DecidableEq, Repr

/-- The configuration files in the order in which they are tried. -/
def candidates : List (Text × Kind) :=
  [("jsconfig.json", .compiler), ("tsconfig.json", .compiler), ("webpack.config.js", .script),
   ("craco.config.js", .script), (".babelrc", .transpiler), ("babel.config.js", .script),
   ("package.json", .package)]

/-- The base directory of a project without settings. -/
def defaultBase : Text := "src"

/-- The settings after a document of some kind has been taken over. -/
def apply (files : FileSystem) (p : Text) (kind : Kind) (entries : List (Value × Value))
    (settings : Settings) : Except SettingsFault Settings :=
  match kind with
  | .compiler =>
    (compilerOptions files p entries).map fun options =>
      { settings with
        baseUrl := Value.textOrEmpty (Value.lookup? options "baseUrl")
        aliases := settings.aliases.insertAll
          (pathAliases ((Value.lookup? options "paths").getD .null)).entries }
  | .package =>
    .ok { settings with aliases := settings.aliases.insertAll (packageAliases entries).entries }
  | .transpiler =>
    .ok { settings with aliases := settings.aliases.insertAll (resolverAliases entries).entries }
  | .script => .ok settings

/-- What a document brings: the settings that end the search, or a notice and the search goes
on. -/
def decide? (files : FileSystem) (name p : Text) (kind : Kind) (settings : Settings)
    (document : Option (List (Value × Value))) :
    Except SettingsFault (Option Settings × Notice) :=
  match document with
  | none => .ok (none, .unusable p)
  | some entries =>
    if kind = .transpiler ∧ (resolverAliases entries).size = 0 then
      .ok (none, .withoutAliases p)
    else (apply files p kind entries settings).map fun settings =>
      (some { settings with source := some name },
        .configured name settings.baseUrl settings.aliases.size)

/-- The settings of a project without a document that counts. -/
def withDefault (files : FileSystem) (root : Text) (settings : Settings) :
    Except SettingsFault Settings :=
  if settings.baseUrl.isEmpty && settings.aliases.size == 0 then
    match files.isDirectory (Path.child root defaultBase) with
    | .error fault => .error (.file fault)
    | .ok isDirectory =>
      .ok (if isDirectory then { settings with baseUrl := defaultBase } else settings)
  else .ok settings

/-- Tries configuration files one after the other, from the settings found so far. -/
def search (files : FileSystem) (root : Text) :
    List (Text × Kind) → Settings → Except SettingsFault (Settings × List Notice)
  | [], settings => (withDefault files root settings).map (·, [])
  | (name, kind) :: rest, settings =>
    let p := Path.child root name
    match files.isFile p with
    | .error fault => .error (.file fault)
    | .ok false => search files root rest settings
    | .ok true =>
      if kind = .script then
        match script files p settings with
        | .error fault => .error fault
        | .ok settings => search files root rest settings
      else match document? files p with
        | .error fault => .error fault
        | .ok document =>
          match decide? files name p kind settings document with
          | .error fault => .error fault
          | .ok (some settings, notice) => .ok (settings, [notice])
          | .ok (none, notice) =>
            (search files root rest settings).map fun (settings, notices) =>
              (settings, notice :: notices)

/-- The import settings of the project at `root`, and the notices about their search. -/
def load (files : FileSystem) (root : Text) : Except SettingsFault (Settings × List Notice) :=
  search files root candidates {}

end Configuration
end ModuleAtlas
