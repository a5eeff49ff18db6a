import ModuleAtlas.FileTree.Basic
import ModuleAtlas.Path.Basic
/-!
Walking along a path. A walk goes from directory to directory and follows the links it meets,
at most forty of them; whether it also follows one at its very end depends on the operation.
It ends at an entry, or in a directory that lacks the last name (`Destination`).
-/
namespace ModuleAtlas

/-! ## Faults -/

/-- Why a file operation fails. -/
inductive FileCause
  /-- There is nothing at the path. -/
  | missing
  /-- Something on the way is no directory. -/
  | notDirectory
  /-- A directory stands where a file is wanted. -/
  | isDirectory
  /-- Something stands where a new entry is wanted. -/
  | occupied
  /-- More links than a walk follows. -/
  | tooManyLinks
  /-- A name or the whole path is too long. -/
  | nameTooLong
  /-- The path has a null character. -/
  | nullCharacter
  /-- The path has a surrogate that stands for no byte. -/
  | unencodable
  /-- A link leads back to itself. -/
  | linkLoop
  /-- Access is not granted. -/
  | denied
deriving DecidableEq, Repr

/-- No path can be the text. -/
@[simp] def FileCause.isIllegal : FileCause → Bool
  | nullCharacter | unencodable => true
  | _ => false

/-- Why a text can be no path, if so. -/
def FileCause.ofText? (p : Text) : Option FileCause :=
  if !p.all Text.isEncodable then some unencodable
  else if p.contains '\x00' then some nullCharacter
  else none

/-- A failed file operation: why, and on which path. -/
structure FileFault where
  cause : FileCause
  path : Text
deriving DecidableEq, Repr

namespace FileFault

/-- A message of the file system: number, words and path. -/
def systemMessage (number : Nat) (words path : Text) : Text :=
  "[Errno " ++ Text.ofNat number ++ "] " ++ words ++ ": " ++ Text.quoted path

/-- What is said about a failed file operation. -/
def message (fault : FileFault) : Text :=
  match fault.cause with
  | .missing => systemMessage 2 "No such file or directory" fault.path
  | .notDirectory => systemMessage 20 "Not a directory" fault.path
  | .isDirectory => systemMessage 21 "Is a directory" fault.path
  | .occupied => systemMessage 17 "File exists" fault.path
  | .tooManyLinks => systemMessage 40 "Too many levels of symbolic links" fault.path
  | .nameTooLong => systemMessage 36 "File name too long" fault.path
  | .nullCharacter => "embedded null byte"
  | .unencodable => Text.encodingMessage Text.isEncodable fault.path
  | .linkLoop => "Symlink loop from " ++ Text.quoted fault.path
  | .denied => systemMessage 13 "Permission denied" fault.path

end FileFault

/-! ## Walks -/

/-- A file tree with the circumstances in which it is used: the current directory, the paths
whose text cannot be read, and those whose directory cannot be listed. -/
structure FileSystem where
  tree : FileTree
  current : Place := []
  unreadable : List Text := []
  unlistable : List Text := []

/-- Where a walk ends. -/
inductive Destination
  | entry (place : Place) (entry : Entry)
  | vacancy (directory : Place) (name : Text)
deriving DecidableEq, Repr

namespace FileTree

/-- The steps of a path. A slash at its end is one more step, to the directory itself. -/
def steps (p : Text) : List Text :=
  (Text.splitOn '/' p).filter (!·.isEmpty) ++
    if p.getLast? == some (.scalar '/') then [(['.'] : Text)] else []

/-- Where the steps of a path start. -/
def startOf (current : Place) (p : Text) : Place := if Path.isAbsolute p then [] else current

/-- The most bytes of a name. -/
def nameLimit : Nat := 255

/-- The most bytes of a path. -/
def pathLimit : Nat := 4095

/-- The most links that a walk follows. -/
def linkLimit : Nat := 40

/-- Walks along steps; `follow` goes on from the directory of a link along the steps of its
target and those behind it. -/
def walkWith (follow : Place → List Text → Except FileCause Destination) (tree : FileTree)
    (followLast : Bool) (place : Place) : List Text → Except FileCause Destination
  | [] =>
    match tree.lookup? place with
    | some entry => .ok (.entry place entry)
    | none => .error .missing
  | step :: rest =>
    if !tree.isDirectoryAt place then .error .notDirectory
    else if step = [.scalar '.'] then walkWith follow tree followLast place rest
    else if step = (['.', '.'] : Text) then walkWith follow tree followLast place.dropLast rest
    else if nameLimit < Text.utf8Length step then .error .nameTooLong
    else match tree.lookup? (place ++ [step]) with
      | none => if rest.isEmpty then .ok (.vacancy place step) else .error .missing
      | some (.link target) =>
        if rest.isEmpty && !followLast then .ok (.entry (place ++ [step]) (.link target))
        else follow (startOf place target) (steps target ++ rest)
      | some _ => walkWith follow tree followLast (place ++ [step]) rest

/-- Walks along steps, following so many links at most. -/
def walk (tree : FileTree) (followLast : Bool) : Nat → Place → List Text → Except FileCause Destination
  | 0, place, todo => walkWith (fun _ _ => .error .tooManyLinks) tree followLast place todo
  | links + 1, place, todo =>
    walkWith (walk tree followLast links) tree followLast place todo

end FileTree

namespace FileSystem

/-- Where a path leads. -/
def locate (files : FileSystem) (followLast : Bool) (p : Text) : Except FileCause Destination :=
  match FileCause.ofText? p with
  | some cause => .error cause
  | none =>
    if FileTree.pathLimit < Text.utf8Length p then .error .nameTooLong
    else files.tree.walk followLast FileTree.linkLimit (FileTree.startOf files.current p)
      (FileTree.steps p)

/-- The cause means that there is nothing at the path. -/
def isAbsence : FileCause → Bool
  | .missing | .notDirectory | .tooManyLinks | .nullCharacter | .unencodable => true
  | _ => false

/-- The entry that a path leads to, if any. A path that cannot be checked is a fault. -/
def target? (files : FileSystem) (p : Text) : Except FileFault (Option Entry) :=
  match files.locate true p with
  | .ok (.entry _ entry) => .ok (some entry)
  | .ok (.vacancy ..) => .ok none
  | .error cause => if isAbsence cause then .ok none else .error ⟨cause, p⟩

/-- The path leads to a file. -/
def isFile (files : FileSystem) (p : Text) : Except FileFault Bool :=
  (files.target? p).map fun entry => match entry with | some (.file _) => true | _ => false

/-- The path leads to a directory. -/
def isDirectory (files : FileSystem) (p : Text) : Except FileFault Bool :=
  (files.target? p).map fun entry => entry == some .directory

/-- A link stands at the path itself. -/
def isLink (files : FileSystem) (p : Text) : Bool :=
  match files.locate false p with
  | .ok (.entry _ (.link _)) => true
  | _ => false

end FileSystem

/-! ## Real paths

The real path is the path without links and steps upwards. What does not exist stays as it is, and so
does the rest of a path behind a link that leads back to itself; such a path is a fault when a walk
along it does not end. -/

namespace FileTree

/-- One step that looks at no entry. -/
def plainStep (place : Place) (step : Text) : Place :=
  if step = [.scalar '.'] then place
  else if step = (['.', '.'] : Text) then place.dropLast else place ++ [step]

/-- Replaces the links among steps; `resolve` does so for one link and tells whether it leads
somewhere. Behind one that does not the rest is taken as it stands. -/
def realWith (resolve : (link directory : Place) → (target : Text) → Place × Bool)
    (tree : FileTree) (place : Place) : List Text → Place × Bool
  | [] => (place, true)
  | step :: rest =>
    if step = [.scalar '.'] || step = (['.', '.'] : Text) then
      realWith resolve tree (plainStep place step) rest
    else match tree.lookup? (place ++ [step]) with
      | some (.link target) =>
        match resolve (place ++ [step]) place target with
        | (reached, true) => realWith resolve tree reached rest
        | (reached, false) => (rest.foldl plainStep reached, false)
      | _ => realWith resolve tree (place ++ [step]) rest

/-- Replaces the links among steps, given the links whose replacement is under way. One more
link than the tree has cannot be under way. -/
def real (tree : FileTree) : Nat → (underWay : List Place) → Place → List Text → Place × Bool
  | 0, _, place, todo => realWith (fun link _ _ => (link, false)) tree place todo
  | links + 1, underWay, place, todo =>
    realWith (fun link directory target =>
      if underWay.contains link then (link, false)
      else real tree links (link :: underWay) (startOf directory target) (steps target))
      tree place todo

end FileTree

namespace FileSystem

/-- The place that is reached from a path's start along steps, without following a link that leads
back to itself. -/
def reached (files : FileSystem) (p : Text) (todo : List Text) : Place :=
  (files.tree.real (files.tree.linkCount + 1) [] (FileTree.startOf files.current p) todo).1

/-- The fault of the first step of a path that no path can have. -/
def illegalStep? (files : FileSystem) (p : Text) : Option FileFault :=
  (FileTree.steps p).findSome? fun step =>
    (FileCause.ofText? step).map fun cause =>
      let before := (FileTree.steps p).takeWhile fun step => (FileCause.ofText? step).isNone
      ⟨cause, Path.join (Place.path (files.reached p before)) step⟩

/-- The real path of a path. -/
def realPath (files : FileSystem) (p : Text) : Except FileFault Text :=
  match files.illegalStep? p with
  | some fault => .error fault
  | none =>
    let real := Place.path (files.reached p (FileTree.steps p))
    match files.locate true real with
    | .error .tooManyLinks => .error ⟨.linkLoop, real⟩
    | _ => .ok real

end FileSystem
end ModuleAtlas
