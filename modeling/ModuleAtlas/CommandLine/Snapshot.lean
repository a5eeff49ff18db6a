import ModuleAtlas.CommandLine.Run
import ModuleAtlas.Text.Encoding
/-!
Snapshots: the circumstances of a run of the command as one JSON document, and the files that a
run has changed as another. So a run depends on nothing but its arguments and its snapshot.

A snapshot has the members `entries`, `current`, `home`, `dataDirectory` and `now`. An entry is
the text of a file, or an object whose member `base64`, `link` or `directory` says what it is.
-/
namespace ModuleAtlas.CommandLine

/-- The circumstances of a run. -/
structure Snapshot where
  files : FileSystem
  environment : Environment
  now : Moment

namespace Snapshot

/-- The text that a value is. -/
def text? : Json → Option Text
  | .string t => some t
  | _ => none

/-- The natural number that a value is, or zero. -/
def number : Json → Nat
  | .int n => n.toNat
  | _ => 0

/-- The entry that a value describes. -/
def described? : Json → Option Entry
  | .string t => some (.file (Text.utf8 t))
  | .object ms =>
    match Json.member? ms "base64", Json.member? ms "link", Json.member? ms "directory" with
    | some (.string t), _, _ => (Text.base64? t).map .file
    | _, some (.string target), _ => some (.link target)
    | _, _, some (.bool true) => some .directory
    | _, _, _ => none
  | _ => none

/-- The place of a path. -/
def placeOf (p : Text) : Place := Path.segments (Path.normalize p)

/-- The tree of the entries that members describe. -/
def tree? (ms : List (Text × Json)) : Option FileTree :=
  ms.foldlM (fun tree (p, value) => (described? value).map (tree.addAlong (placeOf p))) FileTree.empty

/-- The moment that six numbers name. -/
def moment? : Json → Option Moment
  | .array [year, month, day, hour, minute, second] =>
    match Moment.check (number year) (number month) (number day) (number hour) (number minute)
      (number second) 0 none with
    | .ok moment => some moment
    | .error _ => none
  | _ => none

/-- The snapshot that a document describes. -/
def ofJson? : Json → Option Snapshot
  | .object ms =>
    match Json.member? ms "entries", (Json.member? ms "now").bind moment?,
      (Json.member? ms "home").bind text? with
    | some (.object entries), some now, some home =>
      (tree? entries).map fun tree =>
        { files := { tree, current := ((Json.member? ms "current").bind text?).elim [] placeOf }
          environment := { home, dataDirectory := (Json.member? ms "dataDirectory").bind text? }
          now }
    | _, _, _ => none
  | _ => none

/-- The snapshot that the text of a document describes. -/
def ofText? (t : Text) : Option Snapshot :=
  match Json.read t with
  | .ok value => ofJson? value
  | .error _ => none

/-- The files of a tree that another tree lacks or has with other bytes, as a document. -/
def changes (before after : FileTree) : Json :=
  .object (after.entries.filterMap fun (place, entry) =>
    match entry with
    | .file bytes =>
      if before.lookup? place = some entry then none
      else some (place.path, .string (Text.decodeReplacing bytes))
    | _ => none)

end Snapshot

/-- What is said about a run that breaks off. -/
def Breakdown.message : Breakdown → Text
  | scan fault => fault.message
  | file fault => fault.message
  | homeless => "Could not determine home directory."
  | unencodable t => Text.encodingMessage (!·.isSurrogate) t

end ModuleAtlas.CommandLine
