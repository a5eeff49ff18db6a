import ModuleAtlas.Proofs.Table
import ModuleAtlas.Proofs.Yaml.Node
import ModuleAtlas.Yaml.Meaning
import Mathlib.Data.List.TakeWhile
/-!
The data of JSON texts as YAML reads them.
-/
namespace ModuleAtlas.Yaml
open Json (Piece Key Written Elements Members)

/-! ## Words and numbers -/

theorem ofPlain_null : Tag.ofPlain "null" = .null := by decide

theorem ofPlain_bool (b : Bool) : Tag.ofPlain (Json.boolText b) = .bool := by cases b <;> decide

theorem boolValue_boolText (b : Bool) : boolValue (Json.boolText b) = .ok (.bool b) := by
  cases b <;> rfl

/-- The character may stand in an integer. -/
def isNumeric (c : CodePoint) : Bool := c.isDigit || c == '-'

theorem contains_eq_false {words : List Text} (other : ∀ w ∈ words, w.all isNumeric = false) {t : Text}
    (numeric : t.all isNumeric = true) : words.contains t = false := by
  rw [← Bool.not_eq_true, List.contains_iff_mem]
  intro among
  rw [other t among] at numeric
  cases numeric

section
variable {digits : Text} (numeral : Text.IsNumeral digits)
include numeral

theorem all_isNumeric (negative : Bool) : (Json.numberText negative digits).all isNumeric = true := by
  have all : digits.all isNumeric = true := by
    rw [List.all_eq_true]
    intro c among
    simp [isNumeric, numeral.digits c among]
  cases negative with
  | false => exact all
  | true => simpa [Json.numberText, isNumeric] using all

/-- The characters of a numeral are apart from those that are no digits. -/
theorem numeral_ne {c : CodePoint} (among : c ∈ digits) {d : CodePoint} (other : d.isDigit = false) :
    c ≠ d :=
  Json.ne_of_isDigit (numeral.digits c among) other

/-- A numeral opens with a character apart from those that are no digits. -/
theorem numeral_cons :
    ∃ c rest, digits = c :: rest ∧ ∀ d : CodePoint, d.isDigit = false → c ≠ d := by
  obtain ⟨c, rest, rfl⟩ := List.exists_cons_of_ne_nil numeral.nonempty
  exact ⟨c, rest, rfl, fun _ => numeral_ne numeral List.mem_cons_self⟩

theorem dropSign_number (negative : Bool) : Tag.dropSign (Json.numberText negative digits) = digits := by
  cases negative with
  | true => rfl
  | false =>
    obtain ⟨c, rest, rfl, apart⟩ := numeral_cons numeral
    rw [Json.numberText, if_neg (by decide), Tag.dropSign.eq_def]
    split
    · rename_i same
      exact absurd (List.cons.inj same).1 (apart '-' (by decide))
    · rename_i same
      exact absurd (List.cons.inj same).1 (apart '+' (by decide))
    · rfl

theorem isInt_number (negative : Bool) : Tag.isInt (Json.numberText negative digits) = true := by
  rw [Tag.isInt, dropSign_number numeral]
  rcases numeral.cases with rfl | ⟨c, more, rfl, nonzero⟩
  · rfl
  · obtain ⟨digit, later⟩ := List.forall_mem_cons.1 numeral.digits
    have all : more.all Tag.isDigitMark = true := by
      rw [List.all_eq_true]
      intro d among
      simp [Tag.isDigitMark, later d among]
    split
    all_goals simp_all

theorem isFloat_number (negative : Bool) : Tag.isFloat (Json.numberText negative digits) = false := by
  have noPoint : ∀ c ∈ digits, (c != '.') = true := by
    intro c among
    simpa using numeral_ne numeral among (by decide : CodePoint.isDigit '.' = false)
  have numeric := all_isNumeric numeral negative
  have noWord : ([".inf", ".Inf", ".INF"] : List Text).contains digits = false :=
    contains_eq_false (by decide) (all_isNumeric numeral false)
  rw [Tag.isFloat.eq_def]
  split
  · rename_i c rest same
    rw [same] at numeric
    cases numeric
  · simp only [dropSign_number numeral, noWord, Bool.false_eq_true, if_false]
    have none : digits.dropWhile (· != .scalar '.') = [] := List.dropWhile_eq_nil_iff.2 noPoint
    rw [none]

theorem ofPlain_number (negative : Bool) : Tag.ofPlain (Json.numberText negative digits) = .int := by
  have numeric := all_isNumeric numeral negative
  have noBreak : ((Json.numberText negative digits).getLast? == some (.scalar '\n')) = false := by
    rw [beq_eq_false_iff_ne]
    intro last
    have among := List.mem_of_getLast? last
    exact absurd (List.all_eq_true.1 numeric _ among) (by decide)
  have some : (Json.numberText negative digits).isEmpty = false := by
    have nonempty := numeral.nonempty
    cases negative <;> simp [Json.numberText, nonempty]
  have noBool : Tag.isBool (Json.numberText negative digits) = false :=
    contains_eq_false (by decide) numeric
  simp [Tag.ofPlain, noBreak, some, noBool, isFloat_number numeral, isInt_number numeral]

theorem trim_digits : Number.trim digits = digits := by
  have inside : ∀ c ∈ digits, Number.surrounds c = false := by
    intro c among
    have bounds := Text.isDigit_iff.1 (numeral.digits c among)
    have noBlank : Text.isBlank c = false := by
      simp [Text.isBlank, Text.inRanges, Text.blankRanges]
      omega
    simp [Number.surrounds, noBlank]
  have kept : ∀ t : Text, (∀ c ∈ t, Number.surrounds c = false) →
      t.dropWhile Number.surrounds = t := by
    intro t none
    cases t with
    | nil => rfl
    | cons c t => exact List.dropWhile_cons_of_neg (by simp [none c (by simp)])
  rw [Number.trim, Text.trimWhile, kept digits inside, Text.trimEndWhile,
    kept digits.reverse fun c among => inside c (List.mem_reverse.1 among), List.reverse_reverse]

omit numeral in
theorem readDigits_digits (all : ∀ c ∈ digits, c.isDigit) (value count : Nat) :
    Number.readDigits 10 ⟨value, count, false⟩ digits =
      some (digits.foldl (fun n c => n * 10 + (Text.digit? c).getD 0) value,
        count + digits.length, []) := by
  induction digits generalizing value count with
  | nil => simp [Number.readDigits]
  | cons c digits ih =>
    have digit := Text.digit?_of_isDigit (all c (by simp))
    have bounds := Text.isDigit_iff.1 (all c (by simp))
    have small : c.toNat - 48 < 10 := by omega
    have known : Number.digitIn? 10 c = some (c.toNat - 48) := by
      simp [Number.digitIn?, Number.digitValue?, digit, small]
    have later := ih (fun d among => all d (by simp [among])) (value * 10 + (c.toNat - 48)) (count + 1)
    rw [Number.readDigits, known]
    simp only [later, List.foldl_cons, digit, Option.getD_some, List.length_cons]
    rw [Nat.add_assoc, Nat.add_comm 1]

theorem readInteger_digits (short : digits.length ≤ Number.digitLimit) :
    Number.readInteger 10 digits = .ok (Number.decimalValue digits) := by
  have read := readDigits_digits numeral.digits 0 0
  have trimmed := trim_digits numeral
  obtain ⟨c, rest, rfl, apart⟩ := numeral_cons numeral
  have unsigned : Number.splitSign (c :: rest) = (false, c :: rest) := by
    rw [Number.splitSign.eq_def]
    split
    · rename_i same
      exact absurd (List.cons.inj same).1 (apart '-' (by decide))
    · rename_i same
      exact absurd (List.cons.inj same).1 (apart '+' (by decide))
    · rfl
  have bound : ¬ Number.digitLimit < rest.length + 1 := Nat.not_lt.2 short
  simp [Number.readInteger, trimmed, unsigned, Number.dropBase, Number.baseLetter?, read,
    apart '_' (by decide), bound, Number.decimalValue]

theorem unsignedInteger_digits (short : digits.length ≤ Number.digitLimit) :
    unsignedInteger digits = .ok (Number.decimalValue digits) := by
  have read := readInteger_digits numeral short
  have noColon : digits.contains ':' = false := by
    rw [← Bool.not_eq_true, List.contains_iff_mem]
    exact fun among => absurd rfl (numeral_ne numeral among (by decide))
  by_cases zero : digits.head? = some (.scalar '0')
  · rw [numeral.opening zero]
    rfl
  · rw [unsignedInteger.eq_def]
    split
    · exact absurd rfl numeral.nonempty
    all_goals first
      | exact absurd rfl zero
      | rw [noColon, if_neg (by decide), integerIn, read]

theorem intValue_number (short : digits.length ≤ Number.digitLimit) (negative : Bool) :
    intValue (Json.numberText negative digits) = .ok (.int (Json.signedValue negative digits)) := by
  have read := unsignedInteger_digits numeral short
  have kept : withoutUnderscores (Json.numberText negative digits) =
      Json.numberText negative digits := by
    refine List.filter_eq_self.2 fun c among => ?_
    have numeric := List.all_eq_true.1 (all_isNumeric numeral negative) c among
    rw [bne_iff_ne]
    rintro rfl
    exact absurd numeric (by decide)
  rw [intValue, kept]
  cases negative with
  | true => simp [Json.numberText, read, Except.map, Json.signedValue, Double.signed]
  | false =>
    obtain ⟨c, rest, rfl, apart⟩ := numeral_cons numeral
    simp [Json.numberText, read, Except.map, Json.signedValue, Double.signed,
      apart '-' (by decide), apart '+' (by decide)]

end

/-! ## Entries -/

theorem writeEntry_ofMembers (key : Text) (x : Json) (ms : List (Text × Json)) :
    Value.writeEntry (.text key) (.ofJson x) (Value.ofMembers ms) =
      Value.ofMembers (Table.write key x ms) := by
  induction ms with
  | nil => rfl
  | cons m ms ih =>
    obtain ⟨k, y⟩ := m
    have same : Value.sameKey (.text k) (.text key) = (k == key) := rfl
    rw [Value.ofMembers, Value.writeEntry, same, ih, Table.write]
    split <;> rfl

/-- Of members with one key the last value stays, in JSON and in YAML. -/
theorem entriesOf_ofMembers (ms : List (Text × Json)) :
    Value.entriesOf (Value.ofMembers ms) = Value.ofMembers (Table.ofList ms).entries := by
  have run : ∀ table : Table Text Json, (Value.ofMembers ms).foldl
      (fun entries pair => Value.writeEntry pair.1 pair.2 entries) (Value.ofMembers table.entries) =
        Value.ofMembers (table.insertAll ms).entries := by
    induction ms with
    | nil => exact fun _ => rfl
    | cons m ms ih =>
      intro table
      rw [Value.ofMembers, List.foldl_cons, writeEntry_ofMembers]
      exact ih (table.insert m.1 m.2)
  exact run .empty

namespace Meaning

/-- The node means a value, without faults. -/
structure Means (m : Meaning) (v : Value) : Prop where
  value : m.value = v
  faults : m.faults = []

/-- The entries have text keys, and mean entries without faults. -/
structure HasMeaning (written : List (Meaning × Meaning)) (entries : List (Value × Value)) : Prop where
  values : (written.map fun entry => (entry.1.value, entry.2.value)) = entries
  faults : ∀ entry ∈ written, entryFaults entry = []
  keys : ∀ entry ∈ written, entry.1.tag = .str

theorem means_scalar {tag : Tag} {t : Text} {v : Value}
    (kind : tag = .null ∨ tag = .bool ∨ tag = .int ∨ tag = .str) (read : scalarValue tag t = .ok v) :
    Means (ofNode (.scalar tag t)) v := by
  rcases kind with rfl | rfl | rfl | rfl <;>
    exact ⟨by simp [ofNode, ofParts, assess, read, value],
      by simp [ofNode, ofParts, assess, read, faults]⟩

theorem HasMeaning.nil : HasMeaning [] [] := ⟨rfl, by simp, by simp⟩

theorem HasMeaning.cons {m : Meaning} {v : Value} {written : List (Meaning × Meaning)}
    {entries : List (Value × Value)} (key : Text) (here : Means m v)
    (later : HasMeaning written entries) :
    HasMeaning ((ofNode (.scalar .str key), m) :: written) ((.text key, v) :: entries) := by
  have name : Means (ofNode (.scalar .str key)) (.text key) :=
    means_scalar (.inr (.inr (.inr rfl))) rfl
  refine ⟨?_, ?_, ?_⟩
  · simp [name.value, here.value, later.values]
  · refine List.forall_mem_cons.2 ⟨?_, later.faults⟩
    simp [entryFaults, name.faults, name.value, here.faults, Value.isKey]
  · exact List.forall_mem_cons.2 ⟨rfl, later.keys⟩

theorem split_eq {written : List (Meaning × Meaning)} (keys : ∀ entry ∈ written, entry.1.tag = .str) :
    split written = some ([], written) := by
  induction written with
  | nil => rfl
  | cons entry written ih =>
    obtain ⟨key, m⟩ := entry
    have str : key.tag = .str := keys (key, m) (by simp)
    have own : key.asKey = key := by simp [asKey, str]
    rw [split, ih fun entry among => keys entry (by simp [among])]
    simp [str, own]

theorem means_sequence {nodes : List Node} {vs : List Value}
    (items : List.Forall₂ Means (ofNodes nodes) vs) :
    Means (ofNode (.sequence .sequence nodes)) (.list vs) := by
  have each : ∀ ms vs, List.Forall₂ Means ms vs → ms.map value = vs ∧ ms.flatMap faults = [] := by
    intro ms vs all
    induction all with
    | nil => exact ⟨rfl, rfl⟩
    | cons here later ih => simp [here.value, here.faults, ih]
  obtain ⟨values, none⟩ := each _ _ items
  refine ⟨?_, ?_⟩
  · simp only [ofNode, ofParts, assess, value, values]
  · simp only [ofNode, ofParts, assess, faults, none]
    rfl

theorem means_mapping {nodes : List (Node × Node)} {entries : List (Value × Value)}
    (all : HasMeaning (ofPairs nodes) entries) :
    Means (ofNode (.mapping .mapping nodes)) (.map (Value.entriesOf entries)) := by
  have merged : withMerged (ofPairs nodes) = some (ofPairs nodes) := by
    rw [withMerged, split_eq all.keys]
    rfl
  have none : (ofPairs nodes).flatMap entryFaults = [] := List.flatMap_eq_nil_iff.2 all.faults
  refine ⟨?_, ?_⟩
  · have values : entriesValue (some (ofPairs nodes)) = Value.entriesOf entries := by
      rw [entriesValue, Option.getD_some, ← all.values]
    simp only [ofNode, ofParts, assess, merged, Option.bind_some, values]
    rfl
  · simp only [ofNode, ofParts, assess, faults, merged, entriesFaults, Option.bind_some, none]
    rfl

end Meaning

open Meaning

mutual

/-- The node of a value means this value. -/
theorem means_nodeOf (x : Written) : Means (ofNode (nodeOf x)) (.ofJson x.value) := by
  cases x with
  | null => exact means_scalar (.inl ofPlain_null) rfl
  | bool b =>
    have bool := ofPlain_bool b
    exact means_scalar (.inr (.inl bool)) (by rw [bool]; exact boolValue_boolText b)
  | number negative digits numeral short =>
    have int := ofPlain_number numeral negative
    exact means_scalar (.inr (.inr (.inl int)))
      (by rw [int]; exact intValue_number numeral short negative)
  | string pieces => exact means_scalar (.inr (.inr (.inr rfl))) rfl
  | array blank xs => exact means_sequence (mean_elementNodes xs)
  | object blank ms =>
    have meant := means_mapping (mean_memberNodes ms)
    rwa [entriesOf_ofMembers] at meant

theorem mean_elementNodes (xs : Elements) :
    List.Forall₂ Means (ofNodes (elementNodes xs)) (Value.ofElements xs.values) := by
  cases xs with
  | none => exact .nil
  | last x behind => exact .cons (means_nodeOf x) .nil
  | more x behind next xs => exact .cons (means_nodeOf x) (mean_elementNodes xs)

theorem mean_memberNodes (ms : Members) :
    HasMeaning (ofPairs (memberNodes ms)) (Value.ofMembers ms.values) := by
  cases ms with
  | none => exact .nil
  | last key x behind => exact HasMeaning.nil.cons _ (means_nodeOf x)
  | more key x behind next ms => exact (mean_memberNodes ms).cons _ (means_nodeOf x)

end

/-- The text of a tame object, read as YAML, is the data that it is as JSON, even if it has commas
behind last elements and members. -/
theorem read_object {blank : Json.Blank} {ms : Members} (tame : IsTame (.object blank ms)) :
    read (Written.object blank ms).text = .ok (.ofJson (Written.object blank ms).value) := by
  have meant := means_nodeOf (.object blank ms)
  rw [read, ofText_object tame, ofTokens_object]
  simp only [toValue, meant.faults, firstFault, meant.value]

/-! ## Tabs -/

/-- While a flow collection is open, no token begins with a tab. -/
theorem tokensFrom_tab {s : Scan} {token : Token} (inside : Inside s 1 [token]) (p : Place) (t : Text)
    (fuel : Nat) :
    tokensFrom (fuel + 1) s (p.spots (.scalar '\t' :: t)) = [token, .fault .malformed] ∨
      tokensFrom (fuel + 1) s (p.spots (.scalar '\t' :: t)) = [.fault .malformed, token] := by
  have now := inside.fresh (p.spot '\t')
  have still := now.unwind p.column
  have refused : tokenAt (s.fresh (p.spot '\t')) (p.spot '\t') ((p.next '\t').spots t) =
      .error .malformed := by
    simp [tokenAt, isMark_of_ne, opensPlain, endsToken]
  have failed : tokensFrom (fuel + 1) s (p.spots (.scalar '\t' :: t)) =
      (s.fresh (p.spot '\t')).fail .malformed := by
    rw [tokensFrom, skipToToken_visible (by decide)]
    simp [inside.dropStale, still, refused]
  have inserted : ∀ count : Nat,
      ((s.fresh (p.spot '\t')).insertAt count (.fault .malformed)).tokens = [token, .fault .malformed] ∨
        ((s.fresh (p.spot '\t')).insertAt count (.fault .malformed)).tokens =
          [.fault .malformed, token] := by
    intro count
    rw [Scan.insertAt, now.tokens]
    cases count with
    | zero => exact .inl rfl
    | succ count => exact .inr (by simp)
  rw [failed, Scan.fail]
  exact inserted _

/-- An object that opens with a tab is no YAML. -/
theorem read_tabbed {blank : Text} (gap : IsGap blank) (t : Text) :
    read (.scalar '\x7b' :: (blank ++ .scalar '\t' :: t)) = .error .malformed := by
  have tokens : Token.ofText (.scalar '\x7b' :: (blank ++ .scalar '\t' :: t)) ∈
      [[.fault .malformed], [.fault .malformed, .flowMappingStart],
        [.flowMappingStart, .fault .malformed]] := by
    rw [Token.ofText]
    split
    · obtain ⟨opened, inside, -, opening⟩ :=
        tokensFrom_start (.inr ⟨rfl, rfl⟩) ⟨0, 0, 0⟩ (blank ++ .scalar '\t' :: t)
      rw [dropOrderMark_locate (by decide), opening, tokensFrom_gap gap inside.inFlow]
      obtain found | found :=
        tokensFrom_tab inside ((Place.next ⟨0, 0, 0⟩ '\x7b').behind blank) t
          (blank ++ .scalar '\t' :: t).length
      all_goals
        rw [List.length_cons, found]
        simp
    · simp
  simp only [List.mem_cons, List.not_mem_nil, or_false] at tokens
  rcases tokens with same | same | same <;>
    rw [read, same] <;> rfl

end ModuleAtlas.Yaml
