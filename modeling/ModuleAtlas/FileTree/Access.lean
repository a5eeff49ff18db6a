import ModuleAtlas.FileTree.Walk
/-!
Reading and changing files. The text of a file has line feeds only; bytes that encode no text are
refused or replaced, as the reader of the text wants it. The changes are making directories, creating
files that must not exist yet, and writing files that may.
-/
namespace ModuleAtlas.FileSystem

/-! ## Reading -/

/-- A path from the root, without empty segments and dots; in this form access is refused. -/
def fromRoot (files : FileSystem) (p : Text) : Text := Path.child (Place.path files.current) p

/-- The bytes of a file. -/
def bytes (files : FileSystem) (p : Text) : Except FileFault (List UInt8) :=
  if files.unreadable.contains (files.fromRoot p) then .error ⟨.denied, p⟩
  else match files.locate true p with
    | .ok (.entry _ (.file bytes)) => .ok bytes
    | .ok (.entry _ _) => .error ⟨.isDirectory, p⟩
    | .ok (.vacancy ..) => .error ⟨.missing, p⟩
    | .error cause => .error ⟨cause, p⟩

/-- The text of a file, if its bytes encode one. -/
def text? (files : FileSystem) (p : Text) : Except FileFault (Option Text) :=
  (files.bytes p).map fun bytes => (Text.decode? bytes).map Text.unifyNewlines

/-- The text of a file, with a replacement character for each stretch of bytes that encodes
none. -/
def lenientText (files : FileSystem) (p : Text) : Except FileFault Text :=
  (files.bytes p).map fun bytes => Text.unifyNewlines (Text.decodeReplacing bytes)

/-- The names in a directory, sorted. -/
def list (files : FileSystem) (p : Text) : Except FileFault (List Text) :=
  if files.unlistable.contains (files.fromRoot p) then .error ⟨.denied, p⟩
  else match files.locate true p with
    | .ok (.entry place .directory) => .ok (files.tree.names place)
    | .ok (.entry _ _) => .error ⟨.notDirectory, p⟩
    | .ok (.vacancy ..) => .error ⟨.missing, p⟩
    | .error cause => .error ⟨cause, p⟩

/-! ## Changing -/

/-- The file system with one more entry. -/
def add (files : FileSystem) (directory : Place) (name : Text) (entry : Entry) : FileSystem :=
  { files with tree := files.tree.add (directory ++ [name]) entry }

/-- Adds an entry at a path where nothing stands, not even a link. -/
def create (files : FileSystem) (p : Text) (entry : Entry) : Except FileFault FileSystem :=
  match files.locate false p with
  | .ok (.vacancy directory name) => .ok (files.add directory name entry)
  | .ok (.entry ..) => .error ⟨.occupied, p⟩
  | .error cause => .error ⟨cause, p⟩

/-- Writes a file, which is created if it does not exist. A link is followed. -/
def write (files : FileSystem) (p : Text) (bytes : List UInt8) : Except FileFault FileSystem :=
  match files.locate true p with
  | .ok (.vacancy directory name) => .ok (files.add directory name (.file bytes))
  | .ok (.entry place (.file _)) => .ok { files with tree := files.tree.overwrite place bytes }
  | .ok (.entry ..) => .error ⟨.isDirectory, p⟩
  | .error cause => .error ⟨cause, p⟩

/-- What a failure to make a directory comes to: none if a directory is there. -/
def settle (files : FileSystem) (fault : FileFault) : Except FileFault FileSystem :=
  match files.isDirectory fault.path with
  | .ok true => .ok files
  | .ok false => .error fault
  | .error worse => .error worse

/-- Makes a directory unless it is there. -/
def makeDirectory (files : FileSystem) (p : Text) : Except FileFault FileSystem :=
  match files.create p .directory with
  | .ok files => .ok files
  | .error fault => if fault.cause = .missing then .error fault else files.settle fault

/-- Makes a directory and, if one is missing on the way, its parents first; `levels` bounds
their number. Directories that have been made stay when a later one cannot be made. -/
def makeAlong (files : FileSystem) : (levels : Nat) → Text → FileSystem × Except FileFault Unit
  | 0, p =>
    match files.makeDirectory p with
    | .ok files => (files, .ok ())
    | .error fault => (files, .error fault)
  | levels + 1, p =>
    match files.makeDirectory p with
    | .ok files => (files, .ok ())
    | .error fault =>
      if fault.cause ≠ .missing ∨ Path.parent p = p then (files, .error fault)
      else match makeAlong files levels (Path.parent p) with
        | (files, .error fault) => (files, .error fault)
        | (files, .ok ()) =>
          match files.makeDirectory p with
          | .ok files => (files, .ok ())
          | .error fault => (files, .error fault)

/-- Makes a directory and its parents unless they are there. -/
def makeDirectories (files : FileSystem) (p : Text) : FileSystem × Except FileFault Unit :=
  files.makeAlong (Path.segments p).length p

end ModuleAtlas.FileSystem
