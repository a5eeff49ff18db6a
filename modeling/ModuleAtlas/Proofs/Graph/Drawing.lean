import ModuleAtlas.Graph.Drawing
import ModuleAtlas.Proofs.Path.Climb
import ModuleAtlas.Proofs.Text.Digit
import ModuleAtlas.Proofs.Text.Order
/-!
How a drawing is put together. Its lines are units and what stands behind them, and neither depends
on the style; a style only draws the units (`drawingLines_eq`). So two drawings of a graph in two
styles differ in their units only, line by line (`splitOn_drawing`), and where no line has a line end
in it, what stands between the line ends of a drawing are its lines (`splitOn_drawing_of_oneLine`).
-/
namespace ModuleAtlas

/-! ## Units -/

/-- A unit that lines are drawn with: a connector, or what stands below one. -/
inductive Stroke
  | branch | last | bar | blank
deriving DecidableEq, Repr

namespace Stroke

/-- The connector of a node that is the last of its siblings or not. -/
def connector (isLast : Bool) : Stroke := if isLast then last else branch

/-- The unit below a node that is the last of its siblings or not. -/
def below (isLast : Bool) : Stroke := if isLast then blank else bar

/-- The units of a line from the outermost directory inwards, given for each of them and for what the
line is drawn for whether it is the last of its siblings. -/
def ofPlace (around : List Bool) (isLast : Bool) : List Stroke :=
  around.map below ++ [connector isLast]

theorem connector_injective : ∀ isLast other, connector isLast = connector other → isLast = other := by
  decide

theorem below_injective : ∀ isLast other, below isLast = below other → isLast = other := by
  decide

theorem below_ne_connector : ∀ isLast other, below isLast ≠ connector other := by decide

end Stroke

namespace Strokes
open Stroke (connector below ofPlace)

/-- A unit in a style. -/
def text (strokes : Strokes) : Stroke → Text
  | .branch => strokes.branch
  | .last => strokes.last
  | .bar => strokes.bar
  | .blank => strokes.blank

/-- Units in a style, one after the other. -/
def draw (strokes : Strokes) (units : List Stroke) : Text := units.flatMap strokes.text

/-- The units of a style can be told apart: they have one width, no two are the same, and none has a
line end in it. -/
structure AreClear (strokes : Strokes) : Prop where
  width : ∀ unit, (strokes.text unit).length = 4
  apart : ∀ unit other, strokes.text unit = strokes.text other → unit = other
  oneLine : ∀ unit, .scalar '\n' ∉ strokes.text unit

/-- The styles that drawings come in. -/
def styles : List Strokes := [box, plain]

theorem areClear_of_mem {strokes : Strokes} (known : strokes ∈ styles) : strokes.AreClear := by
  have clear : ∀ strokes ∈ styles, ∀ unit ∈ [Stroke.branch, .last, .bar, .blank],
      (strokes.text unit).length = 4 ∧ .scalar '\n' ∉ strokes.text unit ∧
        ∀ other ∈ [Stroke.branch, .last, .bar, .blank],
          strokes.text unit = strokes.text other → unit = other := by decide
  have all : ∀ unit : Stroke, unit ∈ [Stroke.branch, .last, .bar, .blank] := by
    intro unit
    cases unit <;> decide
  exact ⟨fun unit => (clear strokes known unit (all unit)).1,
    fun unit other => (clear strokes known unit (all unit)).2.2 other (all other),
    fun unit => (clear strokes known unit (all unit)).2.1⟩

theorem draw_append (strokes : Strokes) (units more : List Stroke) :
    strokes.draw (units ++ more) = strokes.draw units ++ strokes.draw more :=
  List.flatMap_append

theorem draw_singleton (strokes : Strokes) (unit : Stroke) :
    strokes.draw [unit] = strokes.text unit := by
  simp [draw]

theorem AreClear.oneLine_draw {strokes : Strokes} (clear : strokes.AreClear) (units : List Stroke) :
    .scalar '\n' ∉ strokes.draw units := by
  rw [draw, List.mem_flatMap]
  rintro ⟨unit, -, inside⟩
  exact clear.oneLine unit inside

/-- From a line it can be read off what its units are and what stands behind them. -/
theorem AreClear.eq_of_drawn {strokes : Strokes} (clear : strokes.AreClear)
    {around otherAround : List Bool} {isLast otherLast : Bool} {text otherText : Text}
    (same : strokes.draw (ofPlace around isLast) ++ text =
      strokes.draw (ofPlace otherAround otherLast) ++ otherText) :
    around = otherAround ∧ isLast = otherLast ∧ text = otherText := by
  have first : ∀ {unit other : Stroke} {units others : List Stroke},
      strokes.draw (unit :: units) ++ text = strokes.draw (other :: others) ++ otherText →
        unit = other ∧ strokes.draw units ++ text = strokes.draw others ++ otherText := by
    intro unit other units others same
    simp only [draw, List.flatMap_cons, List.append_assoc] at same
    obtain ⟨here, later⟩ := List.append_inj same (by rw [clear.width, clear.width])
    exact ⟨clear.apart _ _ here, later⟩
  induction around generalizing otherAround with
  | nil =>
    cases otherAround with
    | nil =>
      obtain ⟨unit, text⟩ := first same
      exact ⟨rfl, Stroke.connector_injective _ _ unit, text⟩
    | cons other others => exact absurd (first same).1.symm (Stroke.below_ne_connector _ _)
  | cons outer around ih =>
    cases otherAround with
    | nil => exact absurd (first same).1 (Stroke.below_ne_connector _ _)
    | cons other others =>
      obtain ⟨unit, later⟩ := first same
      obtain ⟨rfl, rest⟩ := ih later
      exact ⟨by rw [Stroke.below_injective _ _ unit], rest⟩

end Strokes

/-! ## Lines -/

/-- A line of a drawing: units and what stands behind them. -/
structure Line where
  units : List Stroke
  text : Text

namespace Line

/-- The line in a style. -/
def inStyle (strokes : Strokes) (line : Line) : Text := strokes.draw line.units ++ line.text

/-- Lines below what stands in these directories, the last one behind its own connector. -/
def connected (around : List Bool) : List Text → List Line
  | [] => []
  | text :: texts => ⟨Stroke.ofPlace around texts.isEmpty, text⟩ :: connected around texts

/-- What a line comes to if a line end within what stands behind its units counts as one. -/
def split (line : Line) : List Line :=
  match Text.splitOn '\n' line.text with
  | [] => []
  | first :: rest => ⟨line.units, first⟩ :: rest.map (⟨[], ·⟩)

end Line

namespace Text

theorem splitOn_append_of_not_mem {sep : CodePoint} {front : Text} (none : sep ∉ front) (t : Text) :
    splitOn sep (front ++ t) = match splitOn sep t with
      | [] => []
      | first :: rest => (front ++ first) :: rest := by
  induction front with
  | nil => cases cut : splitOn sep t <;> simp [cut]
  | cons c front ih =>
    rw [List.mem_cons, not_or] at none
    rw [List.cons_append, splitOn, if_neg (Ne.symm none.1), ih none.2]
    cases cut : splitOn sep t with
    | nil => exact absurd cut (splitOn_ne_nil sep t)
    | cons first rest => rfl

/-- What is joined with a separator is cut there again, and wherever else it stands. -/
theorem splitOn_joinWith_flatMap {sep : CodePoint} {pieces : List Text} (some : pieces ≠ []) :
    splitOn sep (joinWith [sep] pieces) = pieces.flatMap (splitOn sep) := by
  induction pieces with
  | nil => exact absurd rfl some
  | cons first rest ih =>
    by_cases last : rest = []
    · simp [last, joinWith]
    · rw [joinWith_cons last, splitOn_append_cons, ih last, List.flatMap_cons]

end Text

namespace Line

/-- A line that is drawn is cut at the line ends in what stands behind its units. -/
theorem splitOn_inStyle {strokes : Strokes} (clear : strokes.AreClear) (line : Line) :
    Text.splitOn '\n' (line.inStyle strokes) = line.split.map (inStyle strokes) := by
  rw [inStyle, Text.splitOn_append_of_not_mem (clear.oneLine_draw _), split]
  cases Text.splitOn '\n' line.text with
  | nil => rfl
  | cons first rest => simp [inStyle, Strokes.draw, Function.comp_def]

theorem split_eq_self {line : Line} (oneLine : .scalar '\n' ∉ line.text) : line.split = [line] := by
  rw [split, Text.splitOn_of_not_mem oneLine]
  rfl

end Line

/-! ## Nodes in their places -/

/-- A node that is drawn, with its place: for the directories around it, from the outermost inwards,
and for itself whether it is the last of its siblings. -/
structure Drawn where
  around : List Bool
  isLast : Bool
  node : Node Text

namespace Node

mutual

/-- The node in its place and, below a directory, all nodes in theirs. -/
def drawn (around : List Bool) (isLast : Bool) : Node Text → List Drawn
  | ⟨id, name, path, kind, several, imports, importers, children⟩ =>
    let node : Node Text := ⟨id, name, path, kind, several, imports, importers, children⟩
    ⟨around, isLast, node⟩ ::
      if node.isDirectory then drawnAll (around ++ [isLast]) children else []
termination_by structural node => node

/-- The siblings in their places with all that is drawn below them. -/
def drawnAll (around : List Bool) : List (Node Text) → List Drawn
  | [] => []
  | node :: nodes => drawn around nodes.isEmpty node ++ drawnAll around nodes
termination_by structural nodes => nodes

end

/-- What the label of the node shows has no line end in it: the name of a directory, the last segment
of the path of a file. -/
def IsOneLine (node : Node Text) : Prop :=
  if node.isDirectory then .scalar '\n' ∉ node.name else .scalar '\n' ∉ Path.basename node.path

instance (node : Node Text) : Decidable node.IsOneLine :=
  inferInstanceAs (Decidable (if node.isDirectory then _ else _))

end Node

namespace Graph

/-- The nodes that are drawn, in their places. -/
def drawn (graph : Graph Text) : List Drawn := Node.drawnAll [] graph.root.children

/-- What is said below the label of a node: nothing of a directory, and of a file its imports and its
importers if they are shown. -/
def notes (graph : Graph Text) (showImports : Bool) (node : Node Text) : List Text :=
  if node.isDirectory || !showImports then [] else graph.links node

/-- The line of the label of a node in its place. -/
def labelLine (place : Drawn) : Line :=
  ⟨Stroke.ofPlace place.around place.isLast, labelText place.node⟩

/-- The lines of a node in its place: its label, and what is said below. -/
def linesOf (graph : Graph Text) (showImports : Bool) (place : Drawn) : List Line :=
  labelLine place ::
    Line.connected (place.around ++ [place.isLast]) (graph.notes showImports place.node)

/-- The lines of a drawing, apart from the style. -/
def lines (graph : Graph Text) (showImports : Bool) : List Line :=
  ⟨[], graph.root.name ++ [.scalar '/']⟩ :: graph.drawn.flatMap (graph.linesOf showImports) ++
    (([] :: graph.countLines).map (⟨[], ·⟩))

section
variable (graph : Graph Text) (strokes : Strokes)

theorem map_inStyle_connected (around : List Bool) (texts : List Text) :
    (Line.connected around texts).map (Line.inStyle strokes) =
      connected strokes (strokes.draw (around.map Stroke.below)) texts := by
  induction texts with
  | nil => rfl
  | cons text texts ih =>
    rw [Line.connected, List.map_cons, ih]
    cases texts <;>
      simp [connected, Line.inStyle, Stroke.ofPlace, Stroke.connector, Strokes.draw_append,
        Strokes.draw_singleton, Strokes.text]

theorem forestLines_cons (showImports : Bool) (indent : Text) (node : Node Text)
    (nodes : List (Node Text)) :
    forestLines graph strokes showImports indent (node :: nodes) =
      nodeLines graph strokes showImports indent (strokes.text (.connector nodes.isEmpty))
          (strokes.text (.below nodes.isEmpty)) node ++
        forestLines graph strokes showImports indent nodes := by
  cases nodes <;> rfl

theorem inStyle_labelLine (place : Drawn) : (labelLine place).inStyle strokes =
    strokes.draw (place.around.map Stroke.below) ++ strokes.text (.connector place.isLast) ++
      labelText place.node := by
  rw [Line.inStyle, labelLine, Stroke.ofPlace, Strokes.draw_append, Strokes.draw_singleton]

/-- One level further down there is one unit more. -/
theorem draw_below (around : List Bool) (isLast : Bool) :
    strokes.draw ((around ++ [isLast]).map Stroke.below) =
      strokes.draw (around.map Stroke.below) ++ strokes.text (.below isLast) := by
  rw [List.map_append, Strokes.draw_append]
  exact congrArg _ (strokes.draw_singleton _)

mutual

theorem nodeLines_eq (showImports : Bool) (around : List Bool) (isLast : Bool) :
    (node : Node Text) → nodeLines graph strokes showImports (strokes.draw (around.map Stroke.below))
        (strokes.text (.connector isLast)) (strokes.text (.below isLast)) node =
      ((Node.drawn around isLast node).flatMap (graph.linesOf showImports)).map (Line.inStyle strokes)
  | ⟨id, name, path, kind, several, imports, importers, children⟩ => by
    have further := forestLines_eq showImports (around ++ [isLast]) children
    rw [nodeLines, Node.drawn, List.flatMap_cons, List.map_append, linesOf, List.map_cons,
      inStyle_labelLine, map_inStyle_connected, List.cons_append, ← draw_below]
    congr 1
    by_cases directory : Node.isDirectory
        (⟨id, name, path, kind, several, imports, importers, children⟩ : Node Text)
    · rw [if_pos directory, if_pos directory, further]
      simp [directory, notes, connected]
    · by_cases shown : showImports <;> simp [directory, notes, connected, shown]

theorem forestLines_eq (showImports : Bool) (around : List Bool) :
    (nodes : List (Node Text)) →
      forestLines graph strokes showImports (strokes.draw (around.map Stroke.below)) nodes =
        ((Node.drawnAll around nodes).flatMap (graph.linesOf showImports)).map (Line.inStyle strokes)
  | [] => rfl
  | node :: nodes => by
    rw [forestLines_cons, nodeLines_eq showImports around nodes.isEmpty node,
      forestLines_eq showImports around nodes, Node.drawnAll, List.flatMap_append, List.map_append]

end

/-- A style only draws the units of the lines. -/
theorem drawingLines_eq (showImports : Bool) :
    graph.drawingLines strokes showImports = (graph.lines showImports).map (Line.inStyle strokes) := by
  have bare : ∀ t : Text, Line.inStyle strokes ⟨[], t⟩ = t := fun _ => rfl
  have forest := forestLines_eq graph strokes showImports [] graph.root.children
  rw [drawingLines, lines, List.map_append, List.map_cons, bare, List.map_map]
  simp only [Function.comp_def, bare, List.map_id', List.cons_append]
  rw [drawn, ← forest]
  rfl

end

/-- A drawing has a line for the root, one for each node, those below the nodes and five for the
counts. -/
theorem length_lines (graph : Graph Text) (showImports : Bool) : (graph.lines showImports).length =
    1 + graph.drawn.length +
      (graph.drawn.flatMap fun place => graph.notes showImports place.node).length + 5 := by
  have below : ∀ around texts, (Line.connected around texts).length = texts.length := by
    intro around texts
    induction texts with
    | nil => rfl
    | cons text texts ih => simp [Line.connected, ih]
  have own : (graph.drawn.flatMap (graph.linesOf showImports)).length = graph.drawn.length +
      (graph.drawn.flatMap fun place => graph.notes showImports place.node).length := by
    induction graph.drawn with
    | nil => rfl
    | cons place places ih =>
      simp only [List.flatMap_cons, List.length_append, List.length_cons, ih, linesOf, below]
      omega
  rw [lines, List.length_append, List.length_cons, own, List.length_map]
  simp only [List.length_cons, countLines, List.length_nil]
  omega

/-! ## What stands between line ends -/

section
variable (graph : Graph Text) {strokes : Strokes} (clear : strokes.AreClear) (showImports : Bool)
include clear

/-- What stands between the line ends of a drawing is, in every style, the same lines. -/
theorem splitOn_drawing : Text.splitOn '\n' (graph.drawing strokes showImports) =
    ((graph.lines showImports).flatMap Line.split).map (Line.inStyle strokes) := by
  rw [drawing, Text.splitOn_joinWith_flatMap (by simp [drawingLines]), drawingLines_eq,
    List.flatMap_map, List.map_flatMap]
  exact List.flatMap_congr fun line _ => line.splitOn_inStyle clear

theorem splitOn_drawing_of_oneLine
    (oneLine : ∀ line ∈ graph.lines showImports, .scalar '\n' ∉ line.text) :
    Text.splitOn '\n' (graph.drawing strokes showImports) =
      (graph.lines showImports).map (Line.inStyle strokes) := by
  have whole : (graph.lines showImports).flatMap Line.split = graph.lines showImports := by
    conv_rhs => rw [← List.flatMap_singleton' (graph.lines showImports)]
    exact List.flatMap_congr fun line inside => Line.split_eq_self (oneLine line inside)
  rw [splitOn_drawing graph clear, whole]

end

/-! ## Lines without line ends -/

theorem oneLine_mark (kind : Text) : .scalar '\n' ∉ mark kind := by
  rw [mark]
  split_ifs <;> decide

theorem oneLine_labelText {node : Node Text} (oneLine : node.IsOneLine) :
    .scalar '\n' ∉ labelText node := by
  rw [Node.IsOneLine] at oneLine
  rw [labelText]
  split
  · rename_i directory
    rw [if_pos directory] at oneLine
    simpa using oneLine
  · rename_i file
    rw [if_neg file] at oneLine
    have trimmed : .scalar '\n' ∉ Text.trimEndWhile Text.isBlank
        (Path.basename (Label.path node.path) ++ .scalar ' ' :: mark node.kind) := by
      intro inside
      have kept := (List.rdropWhile_prefix Text.isBlank _).subset inside
      simp [oneLine, oneLine_mark] at kept
    split
    · simpa using trimmed
    · exact trimmed

theorem oneLine_countLines (graph : Graph Text) : ∀ text ∈ graph.countLines, .scalar '\n' ∉ text := by
  have natural : ∀ n, .scalar '\n' ∉ Text.ofNat n := fun n inside =>
    absurd ((Text.isNumeral_ofNat n).digits _ inside) (by decide)
  have integer : ∀ n, .scalar '\n' ∉ Text.ofInt n := fun n inside =>
    absurd (Text.isDigit_or_minus_of_mem_ofInt inside) (by decide)
  simp [countLines, natural, integer]

/-- The lines of a drawing have no line ends in them if the labels and what is said below them have
none. -/
theorem oneLine_lines {graph : Graph Text} {showImports : Bool} (root : .scalar '\n' ∉ graph.root.name)
    (labels : ∀ place ∈ graph.drawn, place.node.IsOneLine)
    (notes : ∀ place ∈ graph.drawn, ∀ text ∈ graph.notes showImports place.node, .scalar '\n' ∉ text) :
    ∀ line ∈ graph.lines showImports, .scalar '\n' ∉ line.text := by
  have texts : ∀ around texts, ∀ line ∈ Line.connected around texts, line.text ∈ texts := by
    intro around texts
    induction texts with
    | nil => simp [Line.connected]
    | cons text texts ih =>
      intro line inside
      rcases List.mem_cons.1 inside with rfl | later
      · exact List.mem_cons_self
      · exact List.mem_cons_of_mem _ (ih line later)
  intro line inside
  rw [lines, List.mem_append, List.mem_cons, List.mem_flatMap, List.mem_map] at inside
  rcases inside with (rfl | ⟨place, drawn, own⟩) | ⟨text, count, rfl⟩
  · simpa using root
  · rcases List.mem_cons.1 own with rfl | below
    · exact oneLine_labelText (labels place drawn)
    · exact notes place drawn _ (texts _ _ line below)
  · rcases List.mem_cons.1 count with rfl | count
    · simp
    · exact graph.oneLine_countLines text count

end Graph
end ModuleAtlas
