import ModuleAtlas.FileTree.Access
import ModuleAtlas.Text.Case
/-!
The source files of a project, in the order of a walk that visits the entries of each directory
by name and goes into directories as it meets them. Files are found by their extension. Links to
directories, and directories that are excluded by name or hidden, are not gone into. The walk ends at
the first directory that cannot be listed, after the files before it.
-/
namespace ModuleAtlas.Discovery

/-! ## Names -/

/-- The extensions of source files. -/
def sourceExtensions : List Text := [".js", ".jsx", ".ts", ".tsx"]

/-- The names of directories that hold no source of the project itself. -/
def prunedNames : List Text := ["node_modules", "build", "dist"]

/-- The file has one of the extensions, in any case of its letters. -/
def isEligible (extensions : List Text) (fileName : Text) : Bool :=
  extensions.contains (Text.lower (Path.suffix fileName))

/-- The directory is not walked into: it is excluded by name or hidden. -/
def isPruned (excluded : List Text) (name : Text) : Bool :=
  excluded.contains name || name.head? == some (.scalar '.')

/-! ## The walk -/

/-- Why a walk ends early. -/
inductive WalkFault
  /-- A directory cannot be listed. -/
  | listing (directory : Text) (fault : FileFault)
  /-- It cannot be told what a path leads to. -/
  | check (fault : FileFault)
deriving DecidableEq, Repr

/-- What is said about a walk that ends early. -/
def WalkFault.message : WalkFault → Text
  | listing directory fault => "Cannot read directory " ++ directory ++ ": " ++ fault.message
  | check fault => fault.message

/-- The files that a walk has found, and why it ended early if it did. -/
structure Found where
  files : List Place := []
  fault : Option WalkFault := none
deriving DecidableEq, Repr

/-- What a walk finds first and then; nothing comes behind a fault. -/
def Found.andThen (first next : Found) : Found :=
  match first.fault with
  | some _ => first
  | none => ⟨first.files ++ next.files, next.fault⟩

/-- What a walk looks for. -/
structure Scope where
  extensions : List Text := sourceExtensions
  excluded : List Text := prunedNames
deriving DecidableEq, Repr

/-- What the entry of a directory contributes; `descend` walks through a directory. -/
def entryFiles (descend : Place → Found) (files : FileSystem) (scope : Scope) (directory : Place)
    (name : Text) : Found :=
  let place := directory ++ [name]
  match files.isDirectory place.path with
  | .error fault => ⟨[], some (.check fault)⟩
  | .ok true =>
    if files.isLink place.path || isPruned scope.excluded name then {} else descend place
  | .ok false =>
    match files.isFile place.path with
    | .error fault => ⟨[], some (.check fault)⟩
    | .ok isFile => if isFile && isEligible scope.extensions name then ⟨[place], none⟩ else {}

/-- Walks through a directory, so many levels deep at most. -/
def walk (files : FileSystem) (scope : Scope) : (levels : Nat) → Place → Found
  | 0, _ => {}
  | levels + 1, directory =>
    match files.list directory.path with
    | .error fault => ⟨[], some (.listing directory.path fault)⟩
    | .ok names =>
      (names.map (entryFiles (walk files scope levels) files scope directory)).foldr
        Found.andThen {}

/-- The source files below a directory that is given by its real path. There are no more levels
than entries. -/
def sourceFiles (files : FileSystem) (scope : Scope) (root : Text) : Found :=
  walk files scope (files.tree.entries.length + 1) (Path.segments root)

end ModuleAtlas.Discovery
