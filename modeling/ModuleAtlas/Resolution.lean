import ModuleAtlas.Discovery
import ModuleAtlas.Source.Import
import ModuleAtlas.Table
/-!
From the specifiers of imports to the files they mean: which alias applies to a specifier and which
specifiers name a package from elsewhere, the path that a specifier stands for, and the file that this
path can be completed to.
-/
namespace ModuleAtlas

/-- The import settings of a project: the directory bare specifiers start from, the targets of
aliases, and the configuration file that had the last word. -/
structure Settings where
  baseUrl : Text := []
  aliases : Table Text Text := Table.empty
  source : Option Text := none

instance : Inhabited Settings := ⟨{}⟩

/-! ## Aliases -/

namespace Alias

/-- The specifier equals the alias or continues it after a slash. -/
def applies (specifier key : Text) : Bool :=
  specifier == key ||
    Text.startsWith specifier (if Text.endsWith key ['/'] then key else key ++ [.scalar '/'])

/-- The longer of the best alias so far and another one; the earlier one of equal length. -/
def longer (best : Option Text) (key : Text) : Option Text :=
  match best with
  | none => some key
  | some b => if b.length < key.length then some key else some b

/-- The longest alias that applies to the specifier. The empty alias never does. -/
def best? (specifier : Text) (aliases : Table Text Text) : Option Text :=
  (aliases.keys.filter fun key => !key.isEmpty && applies specifier key).foldl longer none

/-- The specifier names a package from elsewhere: it is neither relative nor absolute, it is
scoped or a single segment, and no alias applies to it. -/
def isExternal (specifier : Text) (aliases : Table Text Text) : Bool :=
  if specifier.head? == some (.scalar '.') || specifier.head? == some (.scalar '/') then false
  else if specifier.head? != some (.scalar '@') && specifier.contains '/' then false
  else !aliases.keys.any fun key => !key.isEmpty && applies specifier key

end Alias

namespace Resolution
open ModuleAtlas.Path

/-! ## Paths

A specifier is taken relative to the directory of the importing file, absolute from the project root,
through the longest alias that applies, or from the directory that the settings name for bare
specifiers. No file is looked at. -/

/-- The directory or file that an alias stands for. -/
def aliasBase (settings : Settings) (projectRoot target : Text) : Text :=
  if isAbsolute target then target
  else if settings.baseUrl.isEmpty then join projectRoot target
  else join (join projectRoot settings.baseUrl) target

/-- The normalised path that a specifier stands for in a file of `directory`. -/
def resolve (specifier : Text) (settings : Settings) (projectRoot directory : Text) : Text :=
  if specifier.head? == some (.scalar '.') then normalize (join directory specifier)
  else if specifier.head? == some (.scalar '/') then
    normalize (join projectRoot (specifier.dropWhile (· == .scalar '/')))
  else match Alias.best? specifier settings.aliases with
    | some key =>
      let base := aliasBase settings projectRoot ((settings.aliases.get? key).getD [])
      let remainder := (specifier.drop key.length).dropWhile (· == .scalar '/')
      normalize (if remainder.isEmpty then base else join base remainder)
    | none =>
      if settings.baseUrl.isEmpty then normalize (join projectRoot specifier)
      else normalize (join (join projectRoot settings.baseUrl) specifier)

/-! ## Files

An import may leave out the extension of a file, or name a directory and mean its index file; of the
files it can mean the first one that exists counts. -/

/-- The path is a directory by its very form. -/
def namesDirectory (p : Text) : Bool :=
  let name := basename p
  name.isEmpty || name = [.scalar '.'] || name = (['.', '.'] : Text)

/-- The files that an import path can mean, in the order of their preference: the path itself,
the path with an extension, and the index files below it. -/
def candidates (extensions : List Text) (p : Text) : List Text :=
  p :: (if namesDirectory p then [] else extensions.map (p ++ ·))
    ++ extensions.map fun extension => normalize (join p ("index" ++ extension))

/-- The first of the paths, relative to `root`, that is a file. -/
def firstFile? (files : FileSystem) (root : Text) : List Text → Except FileFault (Option Text)
  | [] => .ok none
  | p :: rest =>
    match files.isFile (child root p) with
    | .error fault => .error fault
    | .ok true => .ok (some p)
    | .ok false => firstFile? files root rest

/-- The import path, relative to `root`, completed to a file; or unchanged if there is none. -/
def complete (files : FileSystem) (root : Text) (extensions : List Text) (p : Text) :
    Except FileFault Text :=
  (firstFile? files root (candidates extensions p)).map (·.getD p)

/-! ## Targets

Every specifier of an import statement that names no package from elsewhere, resolved, taken relative
to the project root and completed to a file. -/

/-- The specifiers of a source text that name files of the project. -/
def ownSpecifiers (content : Text) (settings : Settings) : List Text :=
  (Source.specifiers content).filter (!Alias.isExternal · settings.aliases)

/-- The path of a specifier relative to the project root. -/
def relativePath (current specifier : Text) (settings : Settings) (root directory : Text) : Text :=
  relative current (resolve specifier settings root directory) root

/-- The targets of the imports of a source text in `directory`, in order; what cannot be
completed to a file stays as it is. -/
def targets (files : FileSystem) (content directory root : Text) (settings : Settings) :
    Except FileFault (List Text) :=
  let current := Place.path files.current
  let root := absolute current root
  let directory := join root directory
  (ownSpecifiers content settings).mapM fun specifier =>
    complete files root Discovery.sourceExtensions
      (relativePath current specifier settings root directory)

end Resolution
end ModuleAtlas
