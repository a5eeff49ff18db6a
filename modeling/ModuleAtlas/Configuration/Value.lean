import ModuleAtlas.Calendar
import ModuleAtlas.Json.Basic
import ModuleAtlas.Number.Reading
import ModuleAtlas.Text.Encoding
/-!
The data of configuration files: JSON values, and what YAML adds to them. Mappings may have
keys of any scalar kind. Two keys are the same when they are the same data, so the numbers 1
and 1.0 and the truth value are one key (`sameKey`).
-/
namespace ModuleAtlas

/-- A value of a configuration file. -/
inductive Value
  | null
  | bool (b : Bool)
  | int (n : Int)
  | double (d : Double)
  | text (t : Text)
  | bytes (bs : List UInt8)
  | date (d : Date)
  | moment (m : Moment)
  | list (items : List Value)
  | pair (key value : Value)
  | set (members : List Value)
  | map (entries : List (Value × Value))

namespace Value

instance : Inhabited Value := ⟨null⟩

mutual

/-- The value of a JSON document. -/
def ofJson : Json → Value
  | .null => null
  | .bool b => bool b
  | .int n => int n
  | .double d => double d
  | .string t => text t
  | .array xs => list (ofElements xs)
  | .object ms => map (ofMembers ms)
termination_by structural value => value

/-- The values of elements. -/
def ofElements : List Json → List Value
  | [] => []
  | x :: xs => ofJson x :: ofElements xs
termination_by structural elements => elements

/-- The entries of members. -/
def ofMembers : List (Text × Json) → List (Value × Value)
  | [] => []
  | (key, x) :: rest => (text key, ofJson x) :: ofMembers rest
termination_by structural members => members

end

/-- The value can be a key of a mapping. -/
def isKey : Value → Bool
  | list _ | map _ | set _ => false
  | _ => true

/-- The integer that a key stands for; truth values are 0 and 1. -/
def keyInteger? : Value → Option Int
  | bool b => some (if b then 1 else 0)
  | int n => some n
  | _ => none

/-- The two keys are the same data. -/
def sameKey : Value → Value → Bool
  | null, null => true
  | text a, text b => a == b
  | bytes a, bytes b => a == b
  | date a, date b => a == b
  | moment a, moment b => a.same b
  | double a, double b => a.same b
  | double a, b => (b.keyInteger?.map a.isInt).getD false
  | a, double b => (a.keyInteger?.map b.isInt).getD false
  | a, b =>
    match a.keyInteger?, b.keyInteger? with
    | some m, some n => m == n
    | _, _ => false

/-- Writes a value under a key; a key that is there keeps its place and its form. -/
def writeEntry (key value : Value) : List (Value × Value) → List (Value × Value)
  | [] => [(key, value)]
  | (k, v) :: rest =>
    if sameKey k key then (k, value) :: rest else (k, v) :: writeEntry key value rest

/-- The entries written one after the other. -/
def entriesOf (pairs : List (Value × Value)) : List (Value × Value) :=
  pairs.foldl (fun entries pair => writeEntry pair.1 pair.2 entries) []

/-- The value under a key that is a text. -/
def lookup? (entries : List (Value × Value)) (key : Text) : Option Value :=
  (entries.find? fun entry => match entry.1 with | text t => t == key | _ => false).map Prod.snd

/-- The value under a key of a mapping. -/
def member? (value : Value) (key : Text) : Option Value :=
  match value with
  | map entries => lookup? entries key
  | _ => none

/-- The text that a value is, or the empty text. -/
def textOrEmpty : Option Value → Text
  | some (text t) => t
  | _ => []

/-- The pairs of texts among the entries of a mapping. -/
def textEntries (entries : List (Value × Value)) : List (Text × Text) :=
  entries.filterMap fun entry =>
    match entry with
    | (text key, text value) => some (key, value)
    | _ => none

end Value

/-- Why the text of a configuration file is no data. -/
inductive DataFault
  /-- The text is neither JSON nor YAML. -/
  | malformed
  /-- A decimal integer has too many digits. -/
  | integerTooLong (digits : Nat)
  /-- A text declared an integer is none in the base it seems to be in. -/
  | integer (base : Nat) (t : Text)
  /-- A text declared a decimal number is none. -/
  | decimal (t : Text)
  /-- A text declared a number is empty. -/
  | emptyNumber
  /-- A number in base sixty has too many digits for a double. -/
  | numberOverflow
  /-- A text declared a truth value is none. -/
  | truth (word : Text)
  /-- A text declared a date or time is none. -/
  | timestamp
  /-- A collection is declared a date or time. -/
  | timestampCollection
  /-- The numbers of a date or time are out of range. -/
  | calendar (fault : CalendarFault)
  /-- An escaped code point is beyond the last character. -/
  | codePoint
  /-- An escaped code point does not fit into a machine word. -/
  | codePointOverflow
deriving DecidableEq, Repr

namespace DataFault

/-- What is said about a text that is no data. -/
def message : DataFault → Text
  | malformed => []
  | integerTooLong digits => (Number.IntegerFault.tooLong digits).message 10 []
  | integer base t => Number.IntegerFault.malformed.message base t
  | decimal t => "could not convert string to float: " ++ Text.quoted t
  | emptyNumber => "the text of a number is empty"
  | numberOverflow => "a number in base sixty is too large for a double"
  | truth word => Text.quoted word
  | timestamp => "a text declared a time is none"
  | timestampCollection => "a collection is declared a time"
  | calendar fault => fault.message
  | codePoint => "chr() arg not in range(0x110000)"
  | codePointOverflow => "an escaped code point does not fit into a machine word"

end DataFault
end ModuleAtlas
