import ModuleAtlas.Text.Encoding
import ModuleAtlas.Yaml.Node
/-!
The data that nodes mean. A scalar means what its tag makes of its text; a mapping takes over
the entries of the mappings it merges, in front of its own. Data may be faulty in several
places. Collections are filled after all data on their level exists, so of several faults the
one on the highest level counts, and on one level the first.
-/
namespace ModuleAtlas.Yaml

/-! ## Scalars -/

/-- The value of a truth word. -/
def boolValue (t : Text) : Except DataFault Value :=
  let word := Text.lower t
  if word = "yes" ∨ word = "true" ∨ word = "on" then .ok (.bool true)
  else if word = "no" ∨ word = "false" ∨ word = "off" then .ok (.bool false)
  else .error (.truth word)

/-- The text without underscores. -/
def withoutUnderscores (t : Text) : Text := t.filter (· != .scalar '_')

/-- An integer in a base. -/
def integerIn (base : Nat) (t : Text) : Except DataFault Int :=
  match Number.readInteger base t with
  | .ok n => .ok n
  | .error .malformed => .error (.integer base t)
  | .error (.tooLong digits) => .error (.integerTooLong digits)

/-- An integer without sign, in the base that its first characters show. -/
def unsignedInteger (t : Text) : Except DataFault Int :=
  match t with
  | [] => .error .emptyNumber
  | ['0'] => .ok 0
  | '0' :: 'b' :: t => integerIn 2 t
  | '0' :: 'x' :: t => integerIn 16 t
  | '0' :: _ => integerIn 8 t
  | _ =>
    if t.contains ':' then
      ((Text.splitOn ':' t).mapM (integerIn 10)).map fun parts =>
        parts.foldl (fun n part => n * 60 + part) 0
    else integerIn 10 t

/-- The value of an integer. -/
def intValue (t : Text) : Except DataFault Value :=
  match withoutUnderscores t with
  | [] => .error .emptyNumber
  | c :: t =>
    if c = '-' then (unsignedInteger t).map fun n => .int (-n)
    else if c = '+' then (unsignedInteger t).map .int
    else (unsignedInteger (c :: t)).map .int

/-- A decimal number. -/
def decimal (t : Text) : Except DataFault Double :=
  match Number.readDouble? t with
  | some d => .ok d
  | none => .error (.decimal t)

/-- The most digits in base sixty of a decimal number: the power of sixty that belongs to the
first one has to be a finite double. -/
def sexagesimalLimit : Nat := 174

/-- The number whose digits in base sixty are given, the last one first. -/
def sexagesimal (digits : List Double) : Except DataFault Double :=
  if sexagesimalLimit < digits.length then .error .numberOverflow
  else .ok (digits.foldl (fun (sum, base) digit =>
    (sum.add (digit.mul (Double.ofInt base)), base * 60)) (Double.zero false, (1 : Int))).1

/-- A decimal number without sign. -/
def unsignedDecimal (t : Text) : Except DataFault Double :=
  if t = ".inf" then .ok (.infinite false)
  else if t = ".nan" then .ok .nan
  else if t.contains ':' then
    ((Text.splitOn ':' t).mapM decimal).bind fun parts => sexagesimal parts.reverse
  else decimal t

/-- The value of a decimal number. -/
def floatValue (t : Text) : Except DataFault Value :=
  match Text.lower (withoutUnderscores t) with
  | [] => .error .emptyNumber
  | c :: t =>
    if c = '-' then (unsignedDecimal t).map fun d => .double d.neg
    else if c = '+' then (unsignedDecimal t).map .double
    else (unsignedDecimal (c :: t)).map .double

/-- The value of bytes in base 64. -/
def binaryValue (t : Text) : Except DataFault Value :=
  if t.all fun c => c.toNat < 128 then
    match Text.base64? t with
    | some bytes => .ok (.bytes bytes)
    | none => .error .malformed
  else .error .malformed

/-- The microseconds of a fraction of a second; digits beyond the sixth do not count. -/
def micros (fraction : Text) : Nat :=
  let digits := fraction.take 6
  Number.decimalValue (digits ++ List.replicate (6 - digits.length) (CodePoint.scalar '0'))

/-- The minutes of an offset. -/
def offsetMinutes : Option Bool × Text × Text → Int
  | (none, _, _) => 0
  | (some negative, hours, minutes) =>
    Double.signed negative (Number.decimalValue hours * 60 + Number.decimalValue minutes)

/-- The value of a date and time. -/
def timestampValue (t : Text) : Except DataFault Value :=
  match Tag.stamp? (if t.getLast? == some (.scalar '\n') then t.dropLast else t) with
  | none => .error .timestamp
  | some s =>
    let number := Number.decimalValue
    let checked : Except CalendarFault Value := match s.time with
      | none => (Date.check (number s.year) (number s.month) (number s.day)).map .date
      | some (hour, minute, second) =>
        (Moment.check (number s.year) (number s.month) (number s.day) (number hour)
          (number minute) (number second) (micros s.fraction)
          (s.offset.map offsetMinutes)).map .moment
    match checked with
    | .ok value => .ok value
    | .error fault => .error (.calendar fault)

/-- The value that a tag makes of a text. -/
def scalarValue (tag : Tag) (t : Text) : Except DataFault Value :=
  match tag with
  | .null => .ok .null
  | .bool => boolValue t
  | .int => intValue t
  | .float => floatValue t
  | .binary => binaryValue t
  | .timestamp => timestampValue t
  | .str => .ok (.text t)
  | _ => .error .malformed

/-! ## Meanings -/

/-- What a node means. -/
inductive Meaning
  /-- The parts are: the tag; the text, of a scalar or of the default value of a mapping;
  the value if there is no fault; the faults with their levels below the node; the items of a
  sequence; the entries of a mapping as they are written; and the entries with the merged ones,
  if merging is possible. -/
  | mk (tag : Tag) (text : Option Text) (value : Value) (faults : List (Nat × DataFault))
    (items : Option (List Meaning)) (written : Option (List (Meaning × Meaning)))
    (entries : Option (List (Meaning × Meaning)))

namespace Meaning

/-- The tag of the node. -/
def tag : Meaning → Tag
  | mk tag .. => tag

/-- The text of a scalar, or of the default value of a mapping. -/
def text : Meaning → Option Text
  | mk _ text .. => text

/-- The value, if there is no fault. -/
def value : Meaning → Value
  | mk _ _ value .. => value

/-- The faults, each with its level below the node. -/
def faults : Meaning → List (Nat × DataFault)
  | mk _ _ _ faults .. => faults

/-- The items of a sequence. -/
def items : Meaning → Option (List Meaning)
  | mk _ _ _ _ items .. => items

/-- The entries of a mapping as they are written. -/
def written : Meaning → Option (List (Meaning × Meaning))
  | mk _ _ _ _ _ written _ => written

/-- The entries of a mapping with the merged ones. -/
def entries : Meaning → Option (List (Meaning × Meaning))
  | mk _ _ _ _ _ _ entries => entries

/-- The sign of a default value is a plain key where keys are expected. -/
def asKey (m : Meaning) : Meaning :=
  match m.tag, m.text with
  | .value, some t => mk .str (some t) (.text t) [] none none none
  | _, _ => m

/-- The entries that a value contributes where it is merged: those of a mapping, or of the
mappings of a sequence, the last one first. -/
def mergedEntries (m : Meaning) : Option (List (Meaning × Meaning)) :=
  match m.written, m.items with
  | some _, _ => m.entries
  | none, some items =>
    let lists := items.mapM fun (item : Meaning) =>
      if item.written.isSome then item.entries else none
    lists.map fun lists => lists.reverse.flatten
  | none, none => none

/-- The merged entries and the other ones. -/
def split : List (Meaning × Meaning) →
    Option (List (Meaning × Meaning) × List (Meaning × Meaning))
  | [] => some ([], [])
  | (key, m) :: rest =>
    (split rest).bind fun (merged, own) =>
      if key.tag = .merge then m.mergedEntries.map fun more => (more ++ merged, own)
      else some (merged, (key.asKey, m) :: own)

/-- The entries of a mapping with the merged ones in front. -/
def withMerged (written : List (Meaning × Meaning)) : Option (List (Meaning × Meaning)) :=
  (split written).map fun (merged, own) => merged ++ own

/-- One level further down. -/
def deeper (faults : List (Nat × DataFault)) : List (Nat × DataFault) :=
  faults.map fun (level, fault) => (level + 1, fault)

/-- The only fault of a node that is not what its tag says. -/
def mismatch : List (Nat × DataFault) := [(1, .malformed)]

/-- The faults of an entry; a key has to be a scalar. -/
def entryFaults (entry : Meaning × Meaning) : List (Nat × DataFault) :=
  entry.1.faults ++ (if entry.1.value.isKey then [] else [(0, .malformed)]) ++ entry.2.faults

/-- The faults of entries. -/
def entriesFaults (entries : Option (List (Meaning × Meaning))) : List (Nat × DataFault) :=
  match entries with
  | some entries => deeper (entries.flatMap entryFaults)
  | none => mismatch

/-- The values of entries. -/
def entriesValue (entries : Option (List (Meaning × Meaning))) : List (Value × Value) :=
  Value.entriesOf ((entries.getD []).map fun (key, m) => (key.value, m.value))

/-- The only entry of an item of an ordered mapping. -/
def single? (m : Meaning) : Option (Meaning × Meaning) :=
  match m.written with
  | some [entry] => some entry
  | _ => none

/-- The faults of the items of an ordered mapping. -/
def pairsFaults (items : List Meaning) : List (Nat × DataFault) :=
  deeper (items.flatMap fun item =>
    match item.single? with
    | some (key, m) => key.faults ++ m.faults
    | none => [(0, .malformed)])

/-- The value of an ordered mapping. -/
def pairsValue (items : List Meaning) : Value :=
  .list (items.filterMap fun item => item.single?.map fun (key, m) => .pair key.value m.value)

/-- The value and the faults of a node of some tag, given its parts. -/
def assess (tag : Tag) (scalar : Bool) (text : Option Text) (items : Option (List Meaning))
    (written entries : Option (List (Meaning × Meaning))) : Value × List (Nat × DataFault) :=
  match tag with
  | .sequence =>
    match items with
    | some items => (.list (items.map value), deeper (items.flatMap faults))
    | none => (.list [], mismatch)
  | .mapping => (.map (entriesValue entries), entriesFaults entries)
  | .set => (.set ((entriesValue entries).map Prod.fst), entriesFaults entries)
  | .ordered | .pairs =>
    match items with
    | some items => (pairsValue items, pairsFaults items)
    | none => (.list [], mismatch)
  | tag =>
    let read : Except DataFault Value := match text with
      | none => .error .malformed
      | some t =>
        if tag = .timestamp ∧ scalar = false ∧ written.isSome then .error .timestampCollection
        else scalarValue tag t
    match read with
    | .ok value => (value, [])
    | .error fault => (.null, [(0, fault)])

/-- The meaning of a node, given its parts. -/
def ofParts (tag : Tag) (scalar : Bool) (text : Option Text) (items : Option (List Meaning))
    (written : Option (List (Meaning × Meaning))) : Meaning :=
  let entries := written.bind withMerged
  let (value, faults) := assess tag scalar text items written entries
  mk tag text value faults items written entries

/-- The text of the default value of a mapping. -/
def defaultText (written : List (Meaning × Meaning)) : Option Text :=
  (written.find? fun entry => entry.1.tag == .value).bind fun entry => entry.2.text

mutual

/-- The meaning of a node. -/
def ofNode : Node → Meaning
  | .scalar tag t => ofParts tag true (some t) none none
  | .sequence tag items => ofParts tag false none (some (ofNodes items)) none
  | .mapping tag entries =>
    let written := ofPairs entries
    ofParts tag false (defaultText written) none (some written)
termination_by structural node => node

/-- The meanings of nodes. -/
def ofNodes : List Node → List Meaning
  | [] => []
  | node :: nodes => ofNode node :: ofNodes nodes
termination_by structural nodes => nodes

/-- The meanings of entries. -/
def ofPairs : List (Node × Node) → List (Meaning × Meaning)
  | [] => []
  | (key, node) :: rest => (ofNode key, ofNode node) :: ofPairs rest
termination_by structural entries => entries

end

/-- The fault that counts: the first one on the highest level. -/
def firstFault : List (Nat × DataFault) → Option (Nat × DataFault)
  | [] => none
  | (level, fault) :: rest =>
    match firstFault rest with
    | some (other, later) => if other < level then some (other, later) else some (level, fault)
    | none => some (level, fault)

/-- The value of a node, or the fault that counts. -/
def toValue (m : Meaning) : Except DataFault Value :=
  match firstFault m.faults with
  | some (_, fault) => .error fault
  | none => .ok m.value

end Meaning

/-- Reads the only document of a YAML text. -/
def read (t : Text) : Except DataFault Value :=
  match Node.ofTokens (Token.ofText t) with
  | .error fault => .error fault
  | .ok none => .ok .null
  | .ok (some node) => (Meaning.ofNode node).toValue

end ModuleAtlas.Yaml
