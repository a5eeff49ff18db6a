import ModuleAtlas.Configuration.Load
import ModuleAtlas.Discovery
import ModuleAtlas.Graph.Tree
import ModuleAtlas.Resolution
/-!
Scanning a project: its import settings are found, its source files are met in the order of the
walk and registered as nodes, and the registry gives the importers and the tree. A file that
cannot be read is left out with a notice, or ends the scan, as the policy says. So does a file
with an import for which it cannot be told whether a file is there.
-/
namespace ModuleAtlas

/-- What a file that cannot be read does to a scan. -/
inductive ReadPolicy
  /-- It is left out. -/
  | skip
  /-- It ends the scan. -/
  | stop
deriving DecidableEq, Repr

/-- The policy that a word names. -/
def ReadPolicy.ofWord? (word : Text) : Option ReadPolicy :=
  if word = "skip" then some skip else if word = "raise" then some stop else none

/-- Why a scan ends without a graph. -/
inductive ScanFault
  /-- There is no policy of this name. -/
  | policy (word : Text)
  /-- There is nothing at the root. -/
  | absent (root : Text)
  /-- The root is no directory. -/
  | notDirectory (root : Text)
  /-- A directory cannot be listed, or an entry not be checked. -/
  | walk (fault : Discovery.WalkFault)
  /-- A file cannot be read. -/
  | unreadable (path reason : Text)
  /-- The settings cannot be found. -/
  | settings (fault : SettingsFault)
  /-- The root cannot be checked. -/
  | unchecked (fault : FileFault)
  /-- Two files have one id. -/
  | taken (id : Text)
deriving DecidableEq, Repr

namespace ScanFault

/-- What is said about a scan without a graph. -/
def message : ScanFault → Text
  | policy word => "Unknown read error policy: " ++ Text.quoted word
  | absent root => .scalar '\'' :: root ++ "' does not exist"
  | notDirectory root => .scalar '\'' :: root ++ "' is not a directory"
  | walk fault => fault.message
  | unreadable path reason => "Cannot read " ++ path ++ ": " ++ reason
  | settings fault => fault.message
  | unchecked fault => fault.message
  | taken id => "Duplicate node id: " ++ id

/-- The fault is about the project, and not about the circumstances of the scan. -/
def isOfProject : ScanFault → Bool
  | absent _ | notDirectory _ | unreadable .. | walk (.listing ..) => true
  | _ => false

end ScanFault

/-- What a scan comes to: its notices, and the graph or why there is none. -/
structure Scan where
  notices : List Notice := []
  graph : Except ScanFault (Graph Text)

namespace Scan

/-- A scan with a notice in front. -/
def note (notice : Notice) (scan : Scan) : Scan := { scan with notices := notice :: scan.notices }

/-- The scan without a graph. -/
def failed (fault : ScanFault) : Scan := { graph := .error fault }

/-- The project that is scanned: its real root, its settings, and the files around it. -/
structure Project where
  files : FileSystem
  root : Text
  settings : Settings

/-- The id of the file at a place. -/
def idOf (project : Project) (place : Place) : Text :=
  Path.relative (Place.path project.files.current) place.path project.root

/-- The node of a source file. -/
def nodeOf (project : Project) (place : Place) : Except FileFault (Node Text) :=
  let id := idOf project place
  (project.files.lenientText place.path).bind fun content =>
    let (role, several) := Source.classify content (Path.name place.path) id
    (Resolution.targets project.files content (Path.parent place.path) project.root
      project.settings).map fun imports =>
        { id, name := Source.displayName id (Path.name project.root), path := id
          kind := role.word, several, imports }

/-- Meets files one after the other. -/
def visit (project : Project) (policy : ReadPolicy) : List Place → Graph Text → Scan
  | [], graph => { graph := .ok graph }
  | place :: places, graph =>
    let graph := graph.meet (idOf project place)
    match nodeOf project place with
    | .error fault =>
      match policy with
      | .stop => failed (.unreadable (idOf project place) fault.message)
      | .skip => note (.skipped (idOf project place) fault.message)
          (visit project policy places graph)
    | .ok node =>
      if node.name.isEmpty then visit project policy places graph
      else match graph.register? node with
        | some graph => visit project policy places graph
        | none => failed (.taken node.id)

/-- The graph of a registry that is complete. -/
def completed (graph : Graph Text) : Graph Text := graph.withImporters.withTree.withSlashes

/-- What becomes of the visited files when the walk has ended. -/
def conclude (root : Text) (fault : Option Discovery.WalkFault) (visited : Scan) : Scan :=
  match visited.graph, fault with
  | .error _, _ => visited
  | .ok _, some fault => { visited with graph := .error (.walk fault) }
  | .ok graph, none =>
    let graph := completed graph
    { notices := visited.notices ++ [.scanned root graph.files.length graph.nodes.size]
      graph := .ok graph }

/-- Scans the project at a real root. -/
def ofRealRoot (files : FileSystem) (policy : ReadPolicy) (scope : Discovery.Scope)
    (root : Text) : Scan :=
  match Configuration.load files root with
  | .error fault => failed (.settings fault)
  | .ok (settings, notices) =>
    let found := Discovery.sourceFiles files scope root
    let visited := visit { files, root, settings } policy found.files
      (Graph.ofDirectory (Path.name root) root)
    let scan := conclude root found.fault visited
    { scan with notices := notices ++ scan.notices }

/-- Scans the project at a path. -/
def ofPath (files : FileSystem) (policy : ReadPolicy) (scope : Discovery.Scope)
    (root : Text) : Scan :=
  let p := Path.clean root
  match files.target? p with
  | .error fault => failed (.unchecked fault)
  | .ok none => failed (.absent root)
  | .ok (some .directory) =>
    match files.realPath p with
    | .error fault => failed (.unchecked fault)
    | .ok real => ofRealRoot files policy scope real
  | .ok (some _) => failed (.notDirectory root)

/-- Scans the project at a path under the policy that a word names. -/
def ofWord (files : FileSystem) (policy : Text) (scope : Discovery.Scope) (root : Text) : Scan :=
  match ReadPolicy.ofWord? policy with
  | some policy => ofPath files policy scope root
  | none => failed (.policy policy)

end Scan
end ModuleAtlas
