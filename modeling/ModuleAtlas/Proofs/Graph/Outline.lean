import ModuleAtlas.Proofs.Graph.Drawing
/-!
What a drawing without imports tells of a graph: the name of its root, its labels as they are nested
and ordered (`Outline`), and all counts that it shows. How deep each label stands and in what order
they come is enough to know how they are nested (`eq_of_levelsAll`), and the units of a line tell how
deep it stands, whatever its label looks like. So graphs that are drawn alike look alike
(`alike_of_drawing`).
-/
namespace ModuleAtlas

/-- Labels as they are nested. -/
inductive Outline
  | of (label : Text) (below : List Outline)

namespace Outline

mutual

/-- The labels of an outline from top to bottom, each with how deep it stands. -/
def levels (depth : Nat) : Outline → List (Nat × Text)
  | of label below => (depth, label) :: levelsAll (depth + 1) below
termination_by structural outline => outline

/-- The labels of outlines one after the other. -/
def levelsAll (depth : Nat) : List Outline → List (Nat × Text)
  | [] => []
  | outline :: outlines => levels depth outline ++ levelsAll depth outlines
termination_by structural outlines => outlines

end

/-- What comes first stands less deep than this. -/
def OpensAbove (depth : Nat) (lines : List (Nat × Text)) : Prop :=
  ∀ line ∈ lines.head?, line.1 < depth

theorem opensAbove_nil (depth : Nat) : OpensAbove depth [] := by simp [OpensAbove]

/-- Below outlines go on lines that stand no deeper. -/
theorem opensAbove_levelsAll_append {depth : Nat} {rest : List (Nat × Text)}
    (above : OpensAbove depth rest) (outlines : List Outline) :
    OpensAbove (depth + 1) (levelsAll depth outlines ++ rest) := by
  cases outlines with
  | nil => exact fun line first => Nat.lt_succ_of_lt (above line first)
  | cons outline outlines =>
    obtain ⟨label, below⟩ := outline
    simp [OpensAbove, levelsAll, levels]

mutual

/-- An outline is known from how deep its labels stand, if what follows does not stand deeper. -/
theorem eq_of_levels {depth : Nat} : (left right : Outline) → {rest others : List (Nat × Text)} →
    OpensAbove (depth + 1) rest → OpensAbove (depth + 1) others →
    levels depth left ++ rest = levels depth right ++ others → left = right ∧ rest = others
  | of label below, of otherLabel otherBelow, rest, others, above, otherAbove, same => by
    simp only [levels, List.cons_append, List.cons.injEq, Prod.mk.injEq, true_and] at same
    obtain ⟨rfl, later⟩ := same
    obtain ⟨rfl, rfl⟩ := eq_of_levelsAll below otherBelow above otherAbove later
    exact ⟨rfl, rfl⟩

/-- Outlines are known from how deep their labels stand, if what follows stands less deep. -/
theorem eq_of_levelsAll {depth : Nat} : (left right : List Outline) →
    {rest others : List (Nat × Text)} → OpensAbove depth rest → OpensAbove depth others →
    levelsAll depth left ++ rest = levelsAll depth right ++ others → left = right ∧ rest = others
  | [], [], _, _, _, _, same => ⟨rfl, same⟩
  | [], of label below :: right, rest, others, above, _, same => by
    have first : (depth, label) ∈ rest.head? := by
      rw [levelsAll, List.nil_append] at same
      rw [same]
      rfl
    exact absurd (above _ first) (Nat.lt_irrefl depth)
  | of label below :: left, [], rest, others, _, otherAbove, same => by
    have first : (depth, label) ∈ others.head? := by
      rw [levelsAll, levelsAll, List.nil_append] at same
      rw [← same]
      rfl
    exact absurd (otherAbove _ first) (Nat.lt_irrefl depth)
  | first :: left, other :: right, rest, others, above, otherAbove, same => by
    rw [levelsAll, levelsAll, List.append_assoc, List.append_assoc] at same
    obtain ⟨rfl, later⟩ := eq_of_levels first other (opensAbove_levelsAll_append above left)
      (opensAbove_levelsAll_append otherAbove right) same
    obtain ⟨rfl, rfl⟩ := eq_of_levelsAll left right above otherAbove later
    exact ⟨rfl, rfl⟩

end

end Outline

namespace Node
open Outline (levels levelsAll)

mutual

/-- The label of the node and, below a directory, the outlines of what stands in it. -/
def outline : Node Text → Outline
  | ⟨id, name, path, kind, several, imports, importers, children⟩ =>
    let node : Node Text := ⟨id, name, path, kind, several, imports, importers, children⟩
    .of (Graph.labelText node) (if node.isDirectory then outlines children else [])
termination_by structural node => node

/-- The outlines of siblings. -/
def outlines : List (Node Text) → List Outline
  | [] => []
  | node :: nodes => outline node :: outlines nodes
termination_by structural nodes => nodes

end

/-- How deep the label of a node is drawn. -/
def level (place : Drawn) : Nat × Text := (place.around.length, Graph.labelText place.node)

mutual

theorem levels_outline (around : List Bool) (isLast : Bool) : (node : Node Text) →
    (drawn around isLast node).map level = levels around.length (outline node)
  | ⟨id, name, path, kind, several, imports, importers, children⟩ => by
    have further := levelsAll_outlines (around ++ [isLast]) children
    rw [List.length_append, List.length_singleton] at further
    rw [drawn, outline, levels, List.map_cons, level]
    congr 1
    split
    · exact further
    · rfl

theorem levelsAll_outlines (around : List Bool) : (nodes : List (Node Text)) →
    (drawnAll around nodes).map level = levelsAll around.length (outlines nodes)
  | [] => rfl
  | node :: nodes => by
    rw [drawnAll, outlines, levelsAll, List.map_append, levels_outline around nodes.isEmpty node,
      levelsAll_outlines around nodes]

end

end Node

namespace Graph

/-- Graphs that look alike: they have one root name and one outline, and they count the same. -/
structure Alike (left right : Graph Text) : Prop where
  root : left.root.name = right.root.name
  outlines : Node.outlines left.root.children = Node.outlines right.root.children
  files : left.files.length = right.files.length
  components : left.stats.components = right.stats.components
  severalComponents : left.stats.severalComponents = right.stats.severalComponents
  states : left.stats.states = right.stats.states
  utilities : left.stats.utilities = right.stats.utilities

/-- The graph is drawn with names in one line each. -/
def IsOneLine (graph : Graph Text) : Prop :=
  .scalar '\n' ∉ graph.root.name ∧ ∀ place ∈ graph.drawn, place.node.IsOneLine

instance (graph : Graph Text) : Decidable graph.IsOneLine := inferInstanceAs (Decidable (_ ∧ _))

section
variable {left right : Graph Text}

/-- The counts below a drawing tell what is counted. -/
theorem eq_of_countLines (same : left.countLines = right.countLines) :
    left.files.length = right.files.length ∧ left.stats.components = right.stats.components ∧
      left.stats.severalComponents = right.stats.severalComponents ∧
      left.stats.states = right.stats.states ∧ left.stats.utilities = right.stats.utilities := by
  have noBlank : ∀ n, .scalar ' ' ∉ Text.ofInt n := fun n inside =>
    absurd (Text.isDigit_or_minus_of_mem_ofInt inside) (by decide)
  simp only [countLines, List.cons.injEq, and_true] at same
  obtain ⟨files, components, states, utilities⟩ := same
  have shorter := List.append_cancel_right components
  simp only [List.append_assoc] at shorter
  have counts := List.append_cancel_left shorter
  -- The first count ends at the first blank behind it.
  have first : left.stats.components = right.stats.components := by
    have blank : (" (multiple per file: " : Text) = .scalar ' ' :: ("(multiple per file: " : Text) := rfl
    have cut := congrArg (Text.splitOn ' ') counts
    rw [blank, List.cons_append, List.cons_append, Text.splitOn_append (noBlank _),
      Text.splitOn_append (noBlank _)] at cut
    exact Text.ofInt_injective (List.cons.inj cut).1
  rw [first] at counts
  have second := List.append_cancel_left (List.append_cancel_left counts)
  exact ⟨Text.ofNat_injective (List.append_cancel_left files), first, Text.ofInt_injective second,
    Text.ofInt_injective (List.append_cancel_left states),
    Text.ofInt_injective (List.append_cancel_left utilities)⟩

/-- The lines of a drawing without imports are the labels in their places. -/
theorem lines_eq (graph : Graph Text) : graph.lines false =
    ⟨[], graph.root.name ++ [.scalar '/']⟩ :: graph.drawn.map labelLine ++
      ([] :: graph.countLines).map (⟨[], ·⟩) := by
  have plain : graph.linesOf false = fun place => [labelLine place] := by
    funext place
    simp [linesOf, notes, Line.connected]
  rw [lines, plain, ← List.map_eq_flatMap]

theorem oneLine_lines_of_isOneLine {graph : Graph Text} (oneLine : graph.IsOneLine) :
    ∀ line ∈ graph.lines false, .scalar '\n' ∉ line.text :=
  oneLine_lines oneLine.1 oneLine.2 fun place _ text inside => by simp [notes] at inside

/-- Labels that are drawn alike are the same labels in the same places. -/
theorem levels_eq_of_labelLines {strokes : Strokes} (clear : strokes.AreClear)
    {places others : List Drawn} (same : (places.map labelLine).map (Line.inStyle strokes) =
      (others.map labelLine).map (Line.inStyle strokes)) :
    places.map Node.level = others.map Node.level := by
  induction places generalizing others with
  | nil =>
    cases others with
    | nil => rfl
    | cons => cases same
  | cons place places ih =>
    cases others with
    | nil => cases same
    | cons other others =>
      obtain ⟨here, later⟩ := List.cons.inj same
      obtain ⟨around, -, text⟩ := clear.eq_of_drawn here
      have label : labelText place.node = labelText other.node := text
      rw [List.map_cons, List.map_cons, ih later, Node.level, Node.level, around, label]

theorem alike_of_lines {strokes : Strokes} (clear : strokes.AreClear)
    (same : (left.lines false).map (Line.inStyle strokes) =
      (right.lines false).map (Line.inStyle strokes)) : Alike left right := by
  have bare : ∀ t : Text, Line.inStyle strokes ⟨[], t⟩ = t := fun _ => rfl
  simp only [lines_eq, List.map_append, List.map_cons, List.map_map, bare, Function.comp_def,
    List.map_id', List.cons_append, List.cons.injEq] at same
  obtain ⟨root, rest⟩ := same
  -- The counts take as many lines in every drawing.
  obtain ⟨labels, counts⟩ := List.append_inj' rest rfl
  have levels : left.drawn.map Node.level = right.drawn.map Node.level :=
    levels_eq_of_labelLines clear (by simpa [Function.comp_def] using labels)
  rw [drawn, drawn, Node.levelsAll_outlines, Node.levelsAll_outlines] at levels
  obtain ⟨outlines, -⟩ := Outline.eq_of_levelsAll _ _ (Outline.opensAbove_nil 0)
    (Outline.opensAbove_nil 0) (congrArg (· ++ []) levels)
  obtain ⟨files, components, severalComponents, states, utilities⟩ :=
    eq_of_countLines (List.cons.inj counts).2
  exact ⟨List.append_cancel_right root, outlines, files, components, severalComponents, states,
    utilities⟩

/-- From a drawing without imports the names and labels, how they are nested and ordered, and the
counts can be read off, in every style, as long as all names are written in one line. And in every
style a drawing, with imports or without, consists of the same lines: only their units, of four
characters each, are drawn in the style. -/
theorem alike_of_drawing :
    (∀ strokes ∈ Strokes.styles, ∀ left right : Graph Text, left.IsOneLine → right.IsOneLine →
      left.drawing strokes false = right.drawing strokes false → Alike left right) ∧
    (∀ (graph : Graph Text) (showImports : Bool), ∃ lines : List Line,
      ∀ strokes ∈ Strokes.styles,
        Text.splitOn '\n' (graph.drawing strokes showImports) =
          lines.map (Line.inStyle strokes) ∧
        ∀ line ∈ lines, ∀ unit ∈ line.units, (strokes.text unit).length = 4) := by
  constructor
  · intro strokes known left right leftOneLine rightOneLine same
    have clear := Strokes.areClear_of_mem known
    apply alike_of_lines clear
    rw [← splitOn_drawing_of_oneLine left clear false (oneLine_lines_of_isOneLine leftOneLine),
      ← splitOn_drawing_of_oneLine right clear false (oneLine_lines_of_isOneLine rightOneLine), same]
  · intro graph showImports
    refine ⟨(graph.lines showImports).flatMap Line.split, fun strokes known => ?_⟩
    have clear := Strokes.areClear_of_mem known
    exact ⟨splitOn_drawing graph clear showImports, fun _ _ unit _ => clear.width unit⟩

end

/-- A directory and files whose names look like units, with something else in all that is not drawn. -/
def deceptive (hidden : Text) : Graph Text where
  root := { id := hidden, name := "app", path := hidden, kind := hidden, children := [
    { id := hidden, name := "├── a", path := hidden, kind := Node.directoryKind, children := [
      { id := hidden, name := hidden, path := hidden ++ "/└── b.js", kind := "util" },
      { id := hidden, name := hidden, path := "    c.js ", kind := hidden, imports := [hidden] }] },
    { id := hidden, name := hidden, path := "│   ├── d.js", kind := "component", several := true }] }
  files := [hidden, hidden, hidden]
  stats := { components := 1, severalComponents := 1, utilities := -1 }

theorem deceptive_alike : (deceptive "x").IsOneLine ∧ (deceptive "y").IsOneLine ∧
    (deceptive "x").drawing .plain false = (deceptive "y").drawing .plain false ∧
    Alike (deceptive "x") (deceptive "y") := by
  have left : (deceptive "x").IsOneLine := by decide
  have right : (deceptive "y").IsOneLine := by decide
  have same : (deceptive "x").drawing .plain false = (deceptive "y").drawing .plain false := by decide
  exact ⟨left, right, same, alike_of_drawing.1 .plain (by decide) _ _ left right same⟩

end Graph
end ModuleAtlas
