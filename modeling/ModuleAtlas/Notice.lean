import ModuleAtlas.Text.Encoding
/-!
Notices: what a run tells about its course, each with a level and a channel, so that a reader
can ask for more or less of them.
-/
namespace ModuleAtlas

/-- How much a notice matters. -/
inductive Level
  | debug | info | warning
deriving DecidableEq, Repr

/-- The word for a level. -/
def Level.word : Level → Text
  | debug => "DEBUG"
  | info => "INFO"
  | warning => "WARNING"

/-- The rank of a level; notices below the rank asked for are not shown. -/
def Level.rank : Level → Nat
  | debug => 0
  | info => 1
  | warning => 2

/-- A notice. -/
inductive Notice
  /-- A configuration file is no mapping. -/
  | unusable (path : Text)
  /-- A transpiler configuration has no aliases. -/
  | withoutAliases (path : Text)
  /-- The configuration file that counts. -/
  | configured (name baseUrl : Text) (aliases : Nat)
  /-- A source file that is left out. -/
  | skipped (path reason : Text)
  /-- The end of a scan. -/
  | scanned (root : Text) (files nodes : Nat)
  /-- A saved graph. -/
  | saved (path : Text)
deriving DecidableEq, Repr

namespace Notice

/-- The level of a notice. -/
def level : Notice → Level
  | unusable _ | withoutAliases _ => .debug
  | configured .. | scanned .. | saved _ => .info
  | skipped .. => .warning

/-- The channel of a notice. -/
def channel : Notice → Text
  | unusable _ | withoutAliases _ | configured .. => "scanner.config"
  | skipped .. | scanned .. => "scanner.builder"
  | saved _ => "exporters.json_exporter"

/-- The words of a notice. -/
def text : Notice → Text
  | unusable path => "Could not parse " ++ path ++ ", trying next config"
  | withoutAliases path =>
    "No module-resolver aliases in " ++ path ++ ", trying next config"
  | configured name baseUrl aliases =>
    "Loaded alias config from " ++ name ++ ": baseUrl=" ++ Text.quoted baseUrl ++ ", "
      ++ Text.ofNat aliases ++ " aliases"
  | skipped path reason => "Skipping unreadable file " ++ path ++ ": " ++ reason
  | scanned root files nodes =>
    "Scanned " ++ root ++ ": " ++ Text.ofNat files ++ " files, " ++ Text.ofNat nodes ++ " nodes"
  | saved path => "Saved project graph to " ++ path

/-- The line that shows a notice. -/
def line (notice : Notice) : Text :=
  notice.level.word ++ .scalar ' ' :: notice.channel ++ .scalar ':' :: .scalar ' ' :: notice.text

/-- The lines of the notices from a level up. -/
def lines (least : Level) (notices : List Notice) : List Text :=
  (notices.filter fun notice => least.rank ≤ notice.level.rank).map line

end Notice
end ModuleAtlas
