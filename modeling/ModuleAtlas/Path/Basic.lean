import ModuleAtlas.Text.Basic
/-!
Paths as texts, with a slash between their segments. Joining, splitting and normalising are
functions of the text alone and look at no file. A path is absolute when it opens with a
slash; exactly two opening slashes are a root of their own, any other number is one.
-/
namespace ModuleAtlas.Path

/-- The path opens with a slash. -/
def isAbsolute (p : Text) : Bool := p.head? == some (.scalar '/')

/-- The path that leads from `base` along `p`; an absolute `p` starts afresh. -/
def join (base p : Text) : Text :=
  if isAbsolute p then p
  else if base.isEmpty || base.getLast? == some (.scalar '/') then base ++ p
  else base ++ .scalar '/' :: p

/-- The slashes that make a path absolute. -/
def root : Text → Text
  | '/' :: '/' :: '/' :: _ => "/"
  | '/' :: '/' :: _ => "//"
  | '/' :: _ => "/"
  | _ => []

/-- The segment names something: it is neither empty nor a dot. -/
def isProper (segment : Text) : Bool := !segment.isEmpty && segment != [.scalar '.']

/-- The segments of a path that name something, the steps upwards included. -/
def segments (p : Text) : List Text := (Text.splitOn '/' p).filter isProper

/-- One step along a segment, from the segments walked so far, the last one first. A step
upwards undoes the last one, stays at an absolute root, and is kept where there is nothing to
undo. -/
def step (absolute : Bool) (walked : List Text) (segment : Text) : List Text :=
  if segment = (['.', '.'] : Text) then
    match walked with
    | [] => if absolute then [] else [segment]
    | top :: rest => if top = (['.', '.'] : Text) then segment :: walked else rest
  else segment :: walked

/-- The text of a path with the given root and segments; the empty path is a dot. -/
def ofSegments (root : Text) (segments : List Text) : Text :=
  let text := root ++ Text.joinWith ['/'] segments
  if text.isEmpty then ['.'] else text

/-- The path without empty segments, dots and steps upwards that undo a step before them. -/
def normalize (p : Text) : Text :=
  ofSegments (root p) ((segments p).foldl (step (isAbsolute p)) []).reverse

/-- The path without empty segments and dots; steps upwards stay, since a link may lie
before them. -/
def clean (p : Text) : Text := ofSegments (root p) (segments p)

/-- The path from `base` along `p`, without empty segments and dots. -/
def child (base p : Text) : Text := clean (join base p)

/-- What follows the last slash. -/
def basename (p : Text) : Text := (p.reverse.takeWhile (· != .scalar '/')).reverse

/-- What stands before the last slash, without further slashes at its end unless it has
nothing else. -/
def dirname (p : Text) : Text :=
  let head := (p.reverse.dropWhile (· != .scalar '/')).reverse
  if head.all (· == .scalar '/') then head else Text.trimEndWhile (· == .scalar '/') head

/-- The last segment that names something. -/
def name (p : Text) : Text := (segments p).getLast?.getD []

/-- The path without its last segment. -/
def parent (p : Text) : Text := ofSegments (root p) (segments p).dropLast

/-- A file name cut before its last dot; the dots it opens with do not count. -/
def stem (fileName : Text) : Text :=
  let dots := fileName.takeWhile (· == .scalar '.')
  let body := fileName.dropWhile (· == .scalar '.')
  if body.contains '.' then dots ++ ((body.reverse.dropWhile (· != .scalar '.')).drop 1).reverse
  else fileName

/-- The last dot of the last segment and what follows it, unless the dot opens or closes the
segment. -/
def suffix (p : Text) : Text :=
  let reversed := (name p).reverse
  let tail := reversed.takeWhile (· != .scalar '.')
  let before := (reversed.dropWhile (· != .scalar '.')).drop 1
  if tail.isEmpty || before.isEmpty then [] else .scalar '.' :: tail.reverse

/-- The normalised path from the file system root, given the current directory. -/
def absolute (cwd p : Text) : Text := normalize (if isAbsolute p then p else join cwd p)

/-- The way from one list of segments to another: up to the last common one, then down. -/
def between : (start target : List Text) → List Text
  | s :: start, t :: target =>
    if s = t then between start target
    else List.replicate (start.length + 1) (['.', '.'] : Text) ++ t :: target
  | start, target => List.replicate start.length (['.', '.'] : Text) ++ target

/-- The path relative to `start`. The empty path stays empty. -/
def relative (cwd p start : Text) : Text :=
  if p.isEmpty then []
  else ofSegments [] (between (segments (absolute cwd start)) (segments (absolute cwd p)))

end ModuleAtlas.Path
