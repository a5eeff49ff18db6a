import ModuleAtlas.Proofs.Yaml.Written
import ModuleAtlas.Yaml.Node
import Mathlib
/-!
The nodes of JSON texts.
-/
namespace ModuleAtlas.Yaml
open Json (Piece Key Written Elements Members)

namespace Node
open Reading

variable {tokens rest : List Token} {anchors : List (Text × Node)} {handles : List (Text × Text)}

theorem node_scalar (block unindented : Bool) (t : Text) (plain : Bool) (fuel : Nat) :
    node block unindented (fuel + 1) ⟨.scalar t plain :: rest, anchors, handles⟩ =
      .ok (.scalar (scalarTag none plain t) t, ⟨rest, anchors, handles⟩) := by
  simp [node, bind, StateT.bind, Except.bind, next?, properties, anchor?, advance, declare, pure,
    StateT.pure, Except.pure]

theorem node_sequence (block unindented : Bool) {fuel : Nat} {items : List Node} {after : Context}
    (read : flowItems true fuel ⟨tokens, anchors, handles⟩ = .ok (items, after)) :
    node block unindented (fuel + 1) ⟨.flowSequenceStart :: tokens, anchors, handles⟩ =
      .ok (.sequence .sequence items, after) := by
  simp [node, bind, StateT.bind, Except.bind, next?, properties, anchor?, advance, declare, pure,
    StateT.pure, Except.pure, read, complete, collectionTag]

theorem node_mapping (block unindented : Bool) {fuel : Nat} {entries : List (Node × Node)}
    {after : Context} (read : flowEntries true fuel ⟨tokens, anchors, handles⟩ = .ok (entries, after)) :
    node block unindented (fuel + 1) ⟨.flowMappingStart :: tokens, anchors, handles⟩ =
      .ok (.mapping .mapping entries, after) := by
  simp [node, bind, StateT.bind, Except.bind, next?, properties, anchor?, advance, declare, pure,
    StateT.pure, Except.pure, read, complete, collectionTag]

/-- The token opens a node of JSON. -/
def opensNode : Token → Bool
  | .scalar .. | .flowSequenceStart | .flowMappingStart => true
  | _ => false

theorem flowItems_end (first : Bool) (fuel : Nat) :
    flowItems first (fuel + 1) ⟨.flowSequenceEnd :: tokens, anchors, handles⟩ =
      .ok ([], ⟨tokens, anchors, handles⟩) := by
  simp [flowItems, bind, StateT.bind, Except.bind, next?, advance, pure, StateT.pure, Except.pure]

theorem flowEntries_end (first : Bool) (fuel : Nat) :
    flowEntries first (fuel + 1) ⟨.flowMappingEnd :: tokens, anchors, handles⟩ =
      .ok ([], ⟨tokens, anchors, handles⟩) := by
  simp [flowEntries, bind, StateT.bind, Except.bind, next?, advance, pure, StateT.pure, Except.pure]

/-- The comma in front of the next part of a flow collection, unless it is the first. -/
def lead (first : Bool) : List Token := if first then [] else [.flowEntry]

theorem flowItems_lead_end (first : Bool) (fuel : Nat) :
    flowItems first (fuel + 1) ⟨lead first ++ .flowSequenceEnd :: tokens, anchors, handles⟩ =
      .ok ([], ⟨tokens, anchors, handles⟩) := by
  cases first <;>
    simp [lead, flowItems, bind, StateT.bind, Except.bind, next?, advance, pure, StateT.pure,
      Except.pure]

theorem flowItem_node {t : Token} (opens : opensNode t = true) (fuel : Nat) :
    flowItem (fuel + 1) ⟨t :: tokens, anchors, handles⟩ =
      node false false fuel ⟨t :: tokens, anchors, handles⟩ := by
  cases t with
  | scalar | flowSequenceStart | flowMappingStart =>
    simp [flowItem, skip, isKey, bind, StateT.bind, Except.bind, next?, pure, StateT.pure, Except.pure]
  | _ => cases opens

theorem flowItems_lead (first : Bool) {t : Token} (opens : opensNode t = true) {fuel : Nat}
    {item : Node} {items : List Node} {after last : Context}
    (here : flowItem fuel ⟨t :: tokens, anchors, handles⟩ = .ok (item, after))
    (later : flowItems false fuel after = .ok (items, last)) :
    flowItems first (fuel + 1) ⟨lead first ++ t :: tokens, anchors, handles⟩ =
      .ok (item :: items, last) := by
  cases t with
  | scalar | flowSequenceStart | flowMappingStart =>
    cases first <;>
      simp [lead, flowItems, bind, StateT.bind, Except.bind, next?, advance, pure, StateT.pure,
        Except.pure, here, later]
  | _ => cases opens

theorem flowEntries_lead_end (first : Bool) (fuel : Nat) :
    flowEntries first (fuel + 1) ⟨lead first ++ .flowMappingEnd :: tokens, anchors, handles⟩ =
      .ok ([], ⟨tokens, anchors, handles⟩) := by
  cases first <;>
    simp [lead, flowEntries, bind, StateT.bind, Except.bind, next?, advance, pure, StateT.pure,
      Except.pure]

theorem flowPair_key (name : Text) {t : Token} (opens : opensNode t = true) {fuel : Nat} {item : Node}
    {after : Context}
    (here : node false false (fuel + 1) ⟨t :: tokens, anchors, handles⟩ = .ok (item, after)) :
    flowPair (fuel + 2) ⟨.key :: .scalar name false :: .value :: t :: tokens, anchors, handles⟩ =
      .ok ((.scalar .str name, item), after) := by
  have key := @node_scalar (.value :: t :: tokens) anchors handles false false name false fuel
  cases t with
  | scalar | flowSequenceStart | flowMappingStart =>
    simp [flowPair, skip, sees, isKey, isValue, isEntryOrEnd, bind, StateT.bind, Except.bind, next?,
      advance, pure, StateT.pure, Except.pure, key, here, scalarTag]
  | _ => cases opens

theorem flowEntries_lead (first : Bool) {fuel : Nat} {entry : Node × Node}
    {entries : List (Node × Node)} {after last : Context}
    (here : flowPair fuel ⟨.key :: tokens, anchors, handles⟩ = .ok (entry, after))
    (later : flowEntries false fuel after = .ok (entries, last)) :
    flowEntries first (fuel + 1) ⟨lead first ++ .key :: tokens, anchors, handles⟩ =
      .ok (entry :: entries, last) := by
  cases first <;>
    simp [lead, flowEntries, bind, StateT.bind, Except.bind, next?, advance, pure, StateT.pure,
      Except.pure, here, later]

end Node

/-! ## Nodes of JSON texts -/

/-- The node of a word or number. -/
def wordNode (t : Text) : Node := .scalar (.ofPlain t) t

mutual

/-- The node of a value. -/
def nodeOf : Written → Node
  | .null => wordNode "null"
  | .bool b => wordNode (Json.boolText b)
  | .number negative digits .. => wordNode (Json.numberText negative digits)
  | .string pieces => .scalar .str (Piece.body pieces)
  | .array _ elements => .sequence .sequence (elementNodes elements)
  | .object _ members => .mapping .mapping (memberNodes members)

/-- The nodes of elements. -/
def elementNodes : Elements → List Node
  | .none => []
  | .last x _ => [nodeOf x]
  | .more x _ _ rest => nodeOf x :: elementNodes rest

/-- The nodes of keys and values. -/
def memberNodes : Members → List (Node × Node)
  | .none => []
  | .last key x _ => [(.scalar .str (Piece.body key.name), nodeOf x)]
  | .more key x _ _ rest => (.scalar .str (Piece.body key.name), nodeOf x) :: memberNodes rest

end

theorem tokensOf_opens (x : Written) : ∃ t ts, tokensOf x = t :: ts ∧ Node.opensNode t = true := by
  cases x <;> exact ⟨_, _, rfl, rfl⟩

section
open Yaml.Node
variable {anchors : List (Text × Node)} {handles : List (Text × Text)}

mutual

/-- The tokens of a value are read as its node. -/
theorem node_tokensOf (x : Written) (block unindented : Bool) {fuel : Nat}
    (enough : 2 * (tokensOf x).length ≤ fuel) (rest : List Token) :
    node block unindented fuel ⟨tokensOf x ++ rest, anchors, handles⟩ =
      .ok (nodeOf x, ⟨rest, anchors, handles⟩) := by
  cases fuel with
  | zero =>
    obtain ⟨t, ts, opens, -⟩ := tokensOf_opens x
    simp [opens] at enough
  | succ fuel =>
  cases x with
  | null | bool | number | string => exact node_scalar ..
  | array blank xs =>
    rw [tokensOf, List.length_cons, List.length_append, List.length_singleton] at enough
    have inside : 2 * (elementTokens xs).length + 2 ≤ fuel := by omega
    have read := flowItems_elementTokens xs true inside rest
    simpa [tokensOf, lead, nodeOf] using node_sequence block unindented read
  | object blank ms =>
    rw [tokensOf, List.length_cons, List.length_append, List.length_singleton] at enough
    have inside : 2 * (memberTokens ms).length + 2 ≤ fuel := by omega
    have read := flowEntries_memberTokens ms true inside rest
    simpa [tokensOf, lead, nodeOf] using node_mapping block unindented read

theorem flowItems_elementTokens (xs : Elements) (first : Bool) {fuel : Nat}
    (enough : 2 * (elementTokens xs).length + 2 ≤ fuel) (rest : List Token) :
    flowItems first fuel
      ⟨lead first ++ (elementTokens xs ++ .flowSequenceEnd :: rest), anchors, handles⟩ =
      .ok (elementNodes xs, ⟨rest, anchors, handles⟩) := by
  obtain ⟨fuel, rfl⟩ : ∃ more, fuel = more + 2 := ⟨fuel - 2, by omega⟩
  cases xs with
  | none => exact flowItems_lead_end first (fuel + 1)
  | last x behind =>
    obtain ⟨t, ts, opens, kind⟩ := tokensOf_opens x
    rw [elementTokens] at enough
    have inside : 2 * (tokensOf x).length ≤ fuel := by omega
    have here := node_tokensOf x false false inside (.flowSequenceEnd :: rest)
    rw [opens, List.cons_append, ← flowItem_node kind] at here
    simpa [elementTokens, elementNodes, opens] using
      flowItems_lead first kind here (flowItems_end false fuel)
  | more x behind next xs =>
    obtain ⟨t, ts, opens, kind⟩ := tokensOf_opens x
    rw [elementTokens, List.length_append, List.length_cons] at enough
    have inside : 2 * (tokensOf x).length ≤ fuel := by omega
    have here := node_tokensOf x false false inside
      (.flowEntry :: (elementTokens xs ++ .flowSequenceEnd :: rest))
    rw [opens, List.cons_append, ← flowItem_node kind] at here
    have behind : 2 * (elementTokens xs).length + 2 ≤ fuel + 1 := by omega
    have later := flowItems_elementTokens xs false behind rest
    simpa [elementTokens, elementNodes, opens] using flowItems_lead first kind here later

theorem flowEntries_memberTokens (ms : Members) (first : Bool) {fuel : Nat}
    (enough : 2 * (memberTokens ms).length + 2 ≤ fuel) (rest : List Token) :
    flowEntries first fuel
      ⟨lead first ++ (memberTokens ms ++ .flowMappingEnd :: rest), anchors, handles⟩ =
      .ok (memberNodes ms, ⟨rest, anchors, handles⟩) := by
  obtain ⟨fuel, rfl⟩ : ∃ more, fuel = more + 2 := ⟨fuel - 2, by omega⟩
  cases ms with
  | none => exact flowEntries_lead_end first (fuel + 1)
  | last key x behind =>
    obtain ⟨t, ts, opens, kind⟩ := tokensOf_opens x
    simp only [memberTokens, keyTokens, List.length_append, List.length_cons] at enough
    obtain ⟨fuel, rfl⟩ : ∃ more, fuel = more + 1 := ⟨fuel - 1, by omega⟩
    have inside : 2 * (tokensOf x).length ≤ fuel + 1 := by omega
    have value := node_tokensOf x false false inside (.flowMappingEnd :: rest)
    rw [opens, List.cons_append] at value
    have here := flowPair_key (Piece.body key.name) kind value
    simpa [memberTokens, memberNodes, keyTokens, opens] using
      flowEntries_lead first here (flowEntries_end false _)
  | more key x behind next ms =>
    obtain ⟨t, ts, opens, kind⟩ := tokensOf_opens x
    simp only [memberTokens, keyTokens, List.length_append, List.length_cons] at enough
    obtain ⟨fuel, rfl⟩ : ∃ more, fuel = more + 1 := ⟨fuel - 1, by omega⟩
    have inside : 2 * (tokensOf x).length ≤ fuel + 1 := by omega
    have value := node_tokensOf x false false inside
      (.flowEntry :: (memberTokens ms ++ .flowMappingEnd :: rest))
    rw [opens, List.cons_append] at value
    have here := flowPair_key (Piece.body key.name) kind value
    have behind : 2 * (memberTokens ms).length + 2 ≤ fuel + 2 := by omega
    have later := flowEntries_memberTokens ms false behind rest
    simpa [memberTokens, memberNodes, keyTokens, opens] using flowEntries_lead first here later

end

end

/-- The only document of the tokens of an object is the node of this object. -/
theorem ofTokens_object (blank : Json.Blank) (ms : Members) :
    Node.ofTokens (tokensOf (.object blank ms)) = .ok (some (nodeOf (.object blank ms))) := by
  have enough : 2 * (tokensOf (.object blank ms)).length ≤
      4 * (tokensOf (.object blank ms)).length + 4 := by omega
  have read := @node_tokensOf [] Node.commonHandles (.object blank ms) true false _ enough []
  rw [List.append_nil] at read
  have single : Node.ofTokens (tokensOf (.object blank ms)) =
      Node.content Node.commonHandles (tokensOf (.object blank ms)) := rfl
  rw [single, Node.content, read]
  rfl

end ModuleAtlas.Yaml
