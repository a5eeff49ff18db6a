import ModuleAtlas.Yaml.Tag
import ModuleAtlas.Yaml.Token
/-!
The nodes of a YAML document: scalars, sequences and mappings, each with its tag. An alias
stands for the node of its anchor; a collection that contains itself is empty where it recurs.
-/
namespace ModuleAtlas.Yaml

/-- A node. -/
inductive Node
  | scalar (tag : Tag) (t : Text)
  | sequence (tag : Tag) (items : List Node)
  | mapping (tag : Tag) (entries : List (Node × Node))

namespace Node

/-- The node where nothing is written. -/
def empty : Node := scalar .null []

instance : Inhabited Node := ⟨empty⟩

/-- What is known while nodes are read: the tokens to come, the nodes of anchors, and the
identifiers of tag handles. -/
structure Context where
  tokens : List Token
  anchors : List (Text × Node)
  handles : List (Text × Text)

/-- A reader of nodes. -/
abbrev Reading (α : Type) := StateT Context (Except DataFault) α

namespace Reading

/-- The document is refused. -/
def refuse {α : Type} : Reading α := fun _ => .error .malformed

/-- The next token, or why there is none. -/
def next? : Reading (Option Token) := fun context =>
  match context.tokens with
  | .fault fault :: _ => .error fault
  | token :: _ => .ok (some token, context)
  | [] => .ok (none, context)

/-- Takes the next token off. -/
def advance : Reading Unit := fun context =>
  .ok ((), { context with tokens := context.tokens.drop 1 })

/-- Takes the next token off if it satisfies `p`, and says whether it did. -/
def skip (p : Token → Bool) : Reading Bool := do
  match ← next? with
  | some token => if p token then do advance; return true else return false
  | none => return false

/-- The next token satisfies `p`. -/
def sees (p : Token → Bool) : Reading Bool := do return (← next?).any p

/-- The node of an anchor. -/
def resolve (name : Text) : Reading Node := fun context =>
  match context.anchors.find? fun entry => entry.1 == name with
  | some (_, node) => .ok (node, context)
  | none => .error .malformed

/-- Gives a node the name of an anchor; no two nodes may have the same. -/
def declare (anchor : Option Text) (node : Node) : Reading Unit := fun context =>
  match anchor with
  | none => .ok ((), context)
  | some name =>
    if context.anchors.any fun entry => entry.1 == name then .error .malformed
    else .ok ((), { context with anchors := (name, node) :: context.anchors })

/-- Puts a complete node in the place of its beginning. -/
def complete (anchor : Option Text) (node : Node) : Reading Node := fun context =>
  match anchor with
  | none => .ok (node, context)
  | some name =>
    .ok (node, { context with anchors := (name, node) :: context.anchors })

/-- The identifier of a tag. -/
def tagUri (handle : Option Text) (rest : Text) : Reading Text := fun context =>
  match handle with
  | none => .ok (rest, context)
  | some handle =>
    match context.handles.find? fun entry => entry.1 == handle with
    | some (_, opening) => .ok (opening ++ rest, context)
    | none => .error .malformed

end Reading

open Reading

/-- An anchor in front of a node, if there is one. -/
def anchor? : Reading (Option Text) := do
  match ← next? with
  | some (.anchor name) => do advance; return some name
  | _ => return none

/-- The identifier of the tag in front of a node, if there is one. -/
def tag? : Reading (Option Text) := do
  match ← next? with
  | some (.tag handle rest) => do advance; return some (← tagUri handle rest)
  | _ => return none

/-- The anchor and the tag in front of a node, in either order. -/
def properties : Reading (Option Text × Option Text) := do
  match ← anchor? with
  | some name => return (some name, ← tag?)
  | none =>
    match ← next? with
    | some (.tag handle rest) => do
      advance
      let anchor ← anchor?
      return (anchor, some (← tagUri handle rest))
    | _ => return (none, none)

/-- The tag of a scalar: the one written, or the one it has by its form if it is plain or has
the tag without a name. -/
def scalarTag (uri : Option Text) (plain : Bool) (t : Text) : Tag :=
  match uri with
  | none => if plain then .ofPlain t else .str
  | some uri => if uri = [.scalar '!'] then .ofPlain t else .ofUri uri

/-- The tag of a collection: the one written, or the one of its kind. -/
def collectionTag (uri : Option Text) (kind : Tag) : Tag :=
  match uri with
  | none => kind
  | some uri => if uri = [.scalar '!'] then kind else .ofUri uri

/-- A value follows. -/
def isValue : Token → Bool
  | .value => true
  | _ => false

/-- A key follows. -/
def isKey : Token → Bool
  | .key => true
  | _ => false

/-- The next part of a flow collection or its end follows. -/
def isEntryOrEnd (inSequence : Bool) : Token → Bool
  | .flowEntry => true
  | .flowSequenceEnd => inSequence
  | .flowMappingEnd => !inSequence
  | _ => false

/-- An entry of a block follows, or its end. -/
def isBlockEntryOrEnd : Token → Bool
  | .blockEntry | .blockEnd => true
  | _ => false

/-- A key or value of a block follows, or its end. -/
def isBlockKeyOrEnd : Token → Bool
  | .key | .value | .blockEnd => true
  | _ => false

/-- The node of an anchor or tag with nothing behind it. -/
def bare (anchor uri : Option Text) : Reading Node :=
  if anchor.isNone && uri.isNone then refuse
  else do
    let result := scalar (scalarTag uri true []) []
    declare anchor result
    return result

mutual

/-- Reads a node. Block collections are admitted in the block only, and sequences without
indentation as the keys and values of its mappings only. -/
def node (block unindented : Bool) : (fuel : Nat) → Reading Node
  | 0 => refuse
  | fuel + 1 => do
    match ← next? with
    | some (.reference name) => do advance; resolve name
    | _ =>
      let (anchor, uri) ← properties
      match ← next? with
      | some (.scalar t plain) => do
        advance
        let result := scalar (scalarTag uri plain t) t
        declare anchor result
        return result
      | some .flowSequenceStart => do
        advance
        declare anchor (sequence (collectionTag uri .sequence) [])
        complete anchor (sequence (collectionTag uri .sequence) (← flowItems true fuel))
      | some .flowMappingStart => do
        advance
        declare anchor (mapping (collectionTag uri .mapping) [])
        complete anchor (mapping (collectionTag uri .mapping) (← flowEntries true fuel))
      | some .blockSequenceStart =>
        if block then do
          advance
          declare anchor (sequence (collectionTag uri .sequence) [])
          complete anchor (sequence (collectionTag uri .sequence) (← blockItems fuel))
        else bare anchor uri
      | some .blockMappingStart =>
        if block then do
          advance
          declare anchor (mapping (collectionTag uri .mapping) [])
          complete anchor (mapping (collectionTag uri .mapping) (← blockEntries fuel))
        else bare anchor uri
      | some .blockEntry =>
        if unindented then do
          declare anchor (sequence (collectionTag uri .sequence) [])
          complete anchor (sequence (collectionTag uri .sequence) (← unindentedItems fuel))
        else bare anchor uri
      | _ => bare anchor uri

/-- The items of a block sequence up to its end. -/
def blockItems : (fuel : Nat) → Reading (List Node)
  | 0 => refuse
  | fuel + 1 => do
    match ← next? with
    | some .blockEntry => do
      advance
      let item ← if ← sees isBlockEntryOrEnd then pure empty else node true false fuel
      return item :: (← blockItems fuel)
    | some .blockEnd => do advance; return []
    | _ => refuse

/-- The items of a sequence without indentation. -/
def unindentedItems : (fuel : Nat) → Reading (List Node)
  | 0 => refuse
  | fuel + 1 => do
    match ← next? with
    | some .blockEntry => do
      advance
      let ends ← sees fun token => isBlockEntryOrEnd token || isBlockKeyOrEnd token
      let item ← if ends then pure empty else node true false fuel
      return item :: (← unindentedItems fuel)
    | _ => return []

/-- The entries of a block mapping up to its end. -/
def blockEntries : (fuel : Nat) → Reading (List (Node × Node))
  | 0 => refuse
  | fuel + 1 => do
    match ← next? with
    | some .key => do
      advance
      let key ← if ← sees isBlockKeyOrEnd then pure empty else node true true fuel
      let value ←
        if ← skip isValue then
          if ← sees isBlockKeyOrEnd then pure empty else node true true fuel
        else pure empty
      return (key, value) :: (← blockEntries fuel)
    | some .blockEnd => do advance; return []
    | _ => refuse

/-- The items of a flow sequence up to its end, a comma in front of each but the first. -/
def flowItems (first : Bool) : (fuel : Nat) → Reading (List Node)
  | 0 => refuse
  | fuel + 1 => do
    match ← next? with
    | some .flowSequenceEnd => do advance; return []
    | some .flowEntry =>
      if first then refuse
      else do
        advance
        match ← next? with
        | some .flowSequenceEnd => do advance; return []
        | _ => return (← flowItem fuel) :: (← flowItems false fuel)
    | _ => if first then return (← flowItem fuel) :: (← flowItems false fuel) else refuse

/-- An item of a flow sequence: a node, or a key and value that are a mapping of their own. -/
def flowItem : (fuel : Nat) → Reading Node
  | 0 => refuse
  | fuel + 1 => do
    if ← skip isKey then
      let ends ← sees fun token => isValue token || isEntryOrEnd true token
      let key ← if ends then pure empty else node false false fuel
      let value ←
        if ← skip isValue then
          if ← sees (isEntryOrEnd true) then pure empty else node false false fuel
        else pure empty
      return mapping .mapping [(key, value)]
    else node false false fuel

/-- The entries of a flow mapping up to its end, a comma in front of each but the first. -/
def flowEntries (first : Bool) : (fuel : Nat) → Reading (List (Node × Node))
  | 0 => refuse
  | fuel + 1 => do
    match ← next? with
    | some .flowMappingEnd => do advance; return []
    | some .flowEntry =>
      if first then refuse
      else do
        advance
        match ← next? with
        | some .flowMappingEnd => do advance; return []
        | _ => return (← flowPair fuel) :: (← flowEntries false fuel)
    | _ => if first then return (← flowPair fuel) :: (← flowEntries false fuel) else refuse

/-- An entry of a flow mapping; without the mark of a key it is a key alone. -/
def flowPair : (fuel : Nat) → Reading (Node × Node)
  | 0 => refuse
  | fuel + 1 => do
    if ← skip isKey then
      let ends ← sees fun token => isValue token || isEntryOrEnd false token
      let key ← if ends then pure empty else node false false fuel
      let value ←
        if ← skip isValue then
          if ← sees (isEntryOrEnd false) then pure empty else node false false fuel
        else pure empty
      return (key, value)
    else return (← node false false fuel, empty)

end

/-! ## Documents -/

/-- The handles that need no directive. -/
def commonHandles : List (Text × Text) := [(['!'], ['!']), (['!', '!'], Tag.standard)]

/-- The handles declared in front of a document, given whether a version was declared and the
handles declared so far. -/
def directives (version : Bool) (handles : List (Text × Text)) :
    List Token → Except DataFault (List (Text × Text) × List Token)
  | .directive .reserved :: tokens => directives version handles tokens
  | .directive (.version major) :: tokens =>
    if version || major != 1 then .error .malformed else directives true handles tokens
  | .directive (.tag handle uri) :: tokens =>
    if handles.any fun entry => entry.1 == handle then .error .malformed
    else directives version ((handle, uri) :: handles) tokens
  | tokens => .ok (handles ++ commonHandles, tokens)

/-- The token is the end of a document. -/
def isDocumentEnd : Token → Bool
  | .documentEnd => true
  | _ => false

/-- Nothing but ends of documents is left. -/
def atEnd (result : Node) (tokens : List Token) : Except DataFault (Option Node) :=
  match tokens.dropWhile isDocumentEnd with
  | [] => .ok (some result)
  | .fault fault :: _ => .error fault
  | _ => .error .malformed

/-- The node of a document, given its handles. -/
def content (handles : List (Text × Text)) (tokens : List Token) :
    Except DataFault (Option Node) :=
  match node true false (4 * tokens.length + 4) ⟨tokens, [], handles⟩ with
  | .ok (result, context) => atEnd result context.tokens
  | .error fault => .error fault

/-- The node of the only document among the tokens, if there is one. -/
def ofTokens (tokens : List Token) : Except DataFault (Option Node) :=
  match tokens with
  | [] => .ok none
  | .directive _ :: _ | .documentStart :: _ =>
    match directives false [] tokens with
    | .error fault => .error fault
    | .ok (handles, .documentStart :: rest) =>
      match rest with
      | [] => .ok (some empty)
      | .directive _ :: _ | .documentStart :: _ | .documentEnd :: _ => atEnd empty rest
      | _ => content handles rest
    | .ok (_, .fault fault :: _) => .error fault
    | .ok _ => .error .malformed
  | _ => content commonHandles tokens

end Node
end ModuleAtlas.Yaml
