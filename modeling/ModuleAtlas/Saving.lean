import ModuleAtlas.Calendar
import ModuleAtlas.FileTree.Access
import ModuleAtlas.Graph.Document
/-!
Saving graphs: each in a new file, named for the project and the time. Where a name is taken, a
number is added, counted up until a name is free; no file is ever overwritten.
-/
/-! ## The directory

Where graphs are saved unless a directory is given: in the directory that the environment names, where a
tilde stands for a home directory, or else below the home of the user. -/

namespace ModuleAtlas

/-- What the environment says about directories. -/
structure Environment where
  /-- The home of the user. -/
  home : Text
  /-- The directory for saved graphs. -/
  dataDirectory : Option Text := none
  /-- The homes of users by name. -/
  homes : List (Text × Text) := []
deriving DecidableEq, Repr

namespace Environment

/-- A home without slashes at its end, unless it has nothing else. -/
def homeText (home : Text) : Text :=
  let home := Text.trimEndWhile (· == .scalar '/') home
  if home.isEmpty then ['/'] else home

/-- The home that a segment with a tilde stands for, unless it is unknown. -/
def homeOf? (environment : Environment) (segment : Text) : Option Text :=
  let home :=
    if segment = [.scalar '~'] then some environment.home
    else (environment.homes.find? fun entry => entry.1 == segment.drop 1).map Prod.snd
  (home.map homeText).filter fun home => home.head? != some (.scalar '~')

/-- The path with the home in place of a tilde at its beginning. -/
def expand? (environment : Environment) (p : Text) : Option Text :=
  let p := Path.clean p
  match Path.isAbsolute p, Path.segments p with
  | false, segment :: rest =>
    if segment.head? == some (.scalar '~') then
      (environment.homeOf? segment).map fun home =>
        Path.child home (Text.joinWith ['/'] rest)
    else some p
  | _, _ => some p

/-- The directory for saved graphs. -/
def saveDirectory? (environment : Environment) : Option Text :=
  match environment.dataDirectory with
  | some (c :: cs) => environment.expand? (c :: cs)
  | _ => (environment.expand? ['~']).map fun home => Path.child home ".local/reactmap"

end Environment
end ModuleAtlas

/-! ## The file -/

namespace ModuleAtlas.Saving

/-- The time in a file name. -/
def stamp (now : Moment) : Text :=
  Text.ofNat now.date.year ++ Text.padded 2 now.date.month ++ Text.padded 2 now.date.day
    ++ .scalar '_' :: Text.padded 2 now.hour ++ Text.padded 2 now.minute ++ Text.padded 2 now.second

/-- The file name of an attempt. -/
def fileName (base : Text) (attempt : Nat) : Text :=
  (if attempt = 0 then base else base ++ .scalar '_' :: Text.ofNat attempt) ++ ".json"

/-- What others add to the files at some time, one entry after the other. -/
abbrev Additions := List (Place × Entry)

/-- The files with what others have added. What a tree does not admit is not added. -/
def addAll (files : FileSystem) (additions : Additions) : FileSystem :=
  { files with tree := additions.foldl (fun tree entry => tree.add entry.1 entry.2) files.tree }

/-- Tries one name after the other, so many at most. The result is the path of the new file. Before
each attempt others may add something. -/
def saveFrom (directory base : Text) (bytes : List UInt8) :
    (attempts : Nat) → (others : List Additions) → (attempt : Nat) → FileSystem →
      FileSystem × Except FileFault Text
  | 0, _, attempt, files =>
    (files, .error ⟨.occupied, Path.child directory (fileName base attempt)⟩)
  | attempts + 1, others, attempt, files =>
    let files := addAll files (others.headD [])
    let p := Path.child directory (fileName base attempt)
    match files.create p (.file bytes) with
    | .ok files => (files, .ok p)
    | .error fault =>
      if fault.cause = .occupied then
        saveFrom directory base bytes attempts others.tail (attempt + 1) files
      else (files, .error fault)

/-- The file name of a graph before its number and extension. -/
def baseName {α : Type} [Label α] (now : Moment) (graph : Graph α) : Text :=
  Label.shown graph.root.name ++ .scalar '_' :: stamp now

/-- The bytes in which a graph is saved. -/
def content {α : Type} [Label α] (graph : Graph α) : List UInt8 :=
  Text.utf8 (graph.text (.indented 2))

/-- Saves a graph in a directory, which is made if it is missing and stays even if the graph
cannot be saved. Of more names than there are entries, with those that others add, one is free. -/
def saveAmong {α : Type} [Label α] (others : List Additions) (files : FileSystem)
    (directory : Text) (now : Moment) (graph : Graph α) : FileSystem × Except FileFault Text :=
  let directory := Path.clean directory
  match files.makeDirectories directory with
  | (files, .error fault) => (files, .error fault)
  | (files, .ok ()) =>
    saveFrom directory (baseName now graph) (content graph)
      (files.tree.entries.length + others.flatten.length + 1) others 0 files

/-- Saves a graph in a directory to which nobody else adds anything meanwhile. -/
def save {α : Type} [Label α] (files : FileSystem) (directory : Text) (now : Moment)
    (graph : Graph α) : FileSystem × Except FileFault Text :=
  saveAmong [] files directory now graph

end ModuleAtlas.Saving
