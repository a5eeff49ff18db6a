import ModuleAtlas.Configuration.Value
/-!
Where configuration files keep aliases: the path patterns of compiler options, the alias and
test settings of a package file, and the options of a module resolving plugin. Entries of other
kinds than text are passed over.
-/
namespace ModuleAtlas.Configuration

/-- The alias and target of one entry of the compiler's path patterns: the first target counts,
and a wildcard at the end of either is dropped. -/
def pathAlias? : Value × Value → Option (Text × Text)
  | (.text pattern, .list (.text target :: _)) =>
    let key := Text.dropTail pattern "/*"
    if key.isEmpty then none else some (key, Text.dropTail target "/*")
  | _ => none

/-- The aliases of the compiler's path patterns. -/
def pathAliases (paths : Value) : Table Text Text :=
  match paths with
  | .map entries => Table.ofList (entries.filterMap pathAlias?)
  | _ => Table.empty

/-- The alias and target of a name mapping of tests. The pattern loses its anchor and its
capture, the target the project root in front and the capture behind. -/
def mapperAlias (pattern target : Text) : Text × Text :=
  let opened := if pattern.head? == some (.scalar '^') then pattern.drop 1 else pattern
  let key := Text.dropTail (Text.dropTail opened "/(.*)$") "(.*)$"
  (key, Text.dropTail (Text.replaceFirst "<rootDir>/" [] target) "/$1")

/-- The entries of a mapping of aliases to targets. -/
def directAliases (value : Option Value) : List (Text × Text) :=
  match value with
  | some (.map entries) => (Value.textEntries entries).filter fun entry => !entry.1.isEmpty
  | _ => []

/-- The entries of the name mappings of tests. -/
def mapperAliases (value : Option Value) : List (Text × Text) :=
  match value with
  | some (.map entries) =>
    ((Value.textEntries entries).map fun entry => mapperAlias entry.1 entry.2).filter
      fun entry => !entry.1.isEmpty && !entry.2.isEmpty
  | _ => []

/-- The aliases of a package file: its own, and the name mappings of its tests. -/
def packageAliases (entries : List (Value × Value)) : Table Text Text :=
  let mapper := (Value.lookup? entries "jest").bind fun jest =>
    jest.member? "moduleNameMapper"
  Table.ofList (directAliases (Value.lookup? entries "alias") ++ mapperAliases mapper)

/-- The names of the module resolving plugin. -/
def resolverNames : List Text := ["module-resolver", "babel-plugin-module-resolver"]

/-- The aliases in the options of one plugin, if it is the module resolving one. -/
def pluginAliases : Value → List (Text × Text)
  | .list (.text name :: options :: _) =>
    if resolverNames.contains name then directAliases (options.member? "alias") else []
  | _ => []

/-- The aliases of the module resolving plugins of a transpiler configuration. -/
def resolverAliases (entries : List (Value × Value)) : Table Text Text :=
  match Value.lookup? entries "plugins" with
  | some (.list plugins) => Table.ofList (plugins.flatMap pluginAliases)
  | _ => Table.empty

end ModuleAtlas.Configuration
