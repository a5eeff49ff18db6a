/-!
Texts are sequences of code points, so that every reader and printer of the library is a
structural recursion on a list. A code point is a character or a surrogate, which escapes and
names of files may put into a text though it is no half of a pair. This module holds code points
and the few operations on texts that the rest needs: looking for a needle, cutting at it,
replacing it, stripping ends, and the order by code point in which everything the library lists
is sorted.
-/
namespace ModuleAtlas

/-- A code point: a character, or a surrogate, counted from the first one. -/
inductive CodePoint
  | scalar (c : Char)
  | surrogate (index : Fin 0x800)
deriving DecidableEq, Repr

instance : Coe Char CodePoint := ⟨CodePoint.scalar⟩

namespace CodePoint

/-- The number of a code point. -/
def toNat : CodePoint → Nat
  | scalar c => c.toNat
  | surrogate index => 0xD800 + index

/-- The code point with a number; zero if there is none. -/
def ofNat (n : Nat) : CodePoint :=
  if h : 0xD800 ≤ n ∧ n < 0xE000 then surrogate ⟨n - 0xD800, by omega⟩ else scalar (Char.ofNat n)

instance : LT CodePoint := ⟨fun a b => a.toNat < b.toNat⟩

instance : LE CodePoint := ⟨fun a b => a.toNat ≤ b.toNat⟩

instance (a b : CodePoint) : Decidable (a < b) := inferInstanceAs (Decidable (a.toNat < b.toNat))

instance (a b : CodePoint) : Decidable (a ≤ b) := inferInstanceAs (Decidable (a.toNat ≤ b.toNat))

/-- A digit of the basic alphabet. -/
def isDigit (c : CodePoint) : Bool := 48 ≤ c.toNat && c.toNat ≤ 57

/-- A letter or digit of the basic alphabet. -/
def isAlphanum (c : CodePoint) : Bool :=
  (65 ≤ c.toNat && c.toNat ≤ 90) || (97 ≤ c.toNat && c.toNat ≤ 122) || c.isDigit

/-- The code point is a surrogate. -/
def isSurrogate : CodePoint → Bool
  | scalar _ => false
  | surrogate _ => true

@[simp] theorem isSurrogate_scalar (c : Char) : (scalar c).isSurrogate = false := rfl

@[simp] theorem toNat_scalar (c : Char) : (scalar c).toNat = c.toNat := rfl

@[simp] theorem scalar_le_iff {a b : Char} : scalar a ≤ scalar b ↔ a ≤ b := Iff.rfl

theorem toNat_lt (c : CodePoint) : c.toNat < 0x110000 := by
  cases c with
  | scalar c =>
    have valid : c.toNat < 0xD800 ∨ (0xDFFF < c.toNat ∧ c.toNat < 0x110000) := c.valid
    exact valid.elim (fun low => Nat.lt_trans low (by decide)) And.right
  | surrogate index => simp only [toNat]; omega

@[simp] theorem ofNat_toNat (c : CodePoint) : ofNat c.toNat = c := by
  cases c with
  | scalar c =>
    have valid : c.toNat < 0xD800 ∨ (0xDFFF < c.toNat ∧ c.toNat < 0x110000) := c.valid
    rw [ofNat, dif_neg (by simp only [toNat]; omega), toNat, Char.ofNat_toNat]
  | surrogate index =>
    have bounds : 0xD800 ≤ 0xD800 + index.val ∧ 0xD800 + index.val < 0xE000 := by omega
    simp only [toNat, ofNat, dif_pos bounds, Nat.add_sub_cancel_left]

theorem toNat_injective {a b : CodePoint} (same : a.toNat = b.toNat) : a = b := by
  rw [← ofNat_toNat a, same, ofNat_toNat]

end CodePoint

/-- A text is the list of its code points. -/
abbrev Text := List CodePoint

/-- The text of a list of characters. -/
def Text.ofChars (cs : List Char) : Text := cs.map CodePoint.scalar

instance : Coe String Text := ⟨fun s => Text.ofChars s.toList⟩

namespace Text

@[simp] theorem ofChars_nil : ofChars [] = [] := rfl

@[simp] theorem ofChars_cons (c : Char) (cs : List Char) : ofChars (c :: cs) = ↑c :: ofChars cs := rfl

/-- The text has no surrogate. -/
def IsScalar (t : Text) : Prop := ∀ c ∈ t, c.isSurrogate = false

instance (t : Text) : Decidable t.IsScalar := inferInstanceAs (Decidable (∀ c ∈ t, _))

@[simp] theorem isScalar_nil : IsScalar [] := by simp [IsScalar]

@[simp] theorem isScalar_cons {c : CodePoint} {t : Text} :
    IsScalar (c :: t) ↔ c.isSurrogate = false ∧ IsScalar t := List.forall_mem_cons

/-- The text opens with `head`. -/
def startsWith (t head : Text) : Bool := head.isPrefixOf t

/-- The text closes with `tail`. -/
def endsWith (t tail : Text) : Bool := tail.isSuffixOf t

/-- What follows `head` when the text opens with it. -/
def dropHead? : (head t : Text) → Option Text
  | [], t => some t
  | _ :: _, [] => none
  | h :: hs, c :: cs => if h = c then dropHead? hs cs else none

/-- The text without `tail` at its end, or the whole text when it does not close with it. -/
def dropTail (t tail : Text) : Text :=
  if tail.isSuffixOf t then t.take (t.length - tail.length) else t

/-- The text without the characters at its end that satisfy `p`. -/
def trimEndWhile (p : CodePoint → Bool) (t : Text) : Text := (t.reverse.dropWhile p).reverse

/-- The text without the characters at its two ends that satisfy `p`. -/
def trimWhile (p : CodePoint → Bool) (t : Text) : Text := trimEndWhile p (t.dropWhile p)

/-- The text cut around the first occurrence of `needle`: what stands before it and after it. -/
def cutAt? (needle : Text) : Text → Option (Text × Text)
  | [] => (dropHead? needle []).map ([], ·)
  | c :: cs =>
    match dropHead? needle (c :: cs) with
    | some after => some ([], after)
    | none => (cutAt? needle cs).map fun (before, after) => (c :: before, after)

/-- What follows the first occurrence of `needle`. -/
def after? (needle t : Text) : Option Text := (cutAt? needle t).map Prod.snd

/-- `needle` occurs somewhere in the text. -/
def has (t needle : Text) : Bool := (cutAt? needle t).isSome

/-- The text with the first occurrence of `needle` replaced. -/
def replaceFirst (needle replacement t : Text) : Text :=
  match cutAt? needle t with
  | some (before, after) => before ++ replacement ++ after
  | none => t

/-- The pieces between the occurrences of a character; never the empty list. -/
def splitOn (sep : CodePoint) : Text → List Text
  | [] => [[]]
  | c :: cs =>
    if c = sep then [] :: splitOn sep cs
    else match splitOn sep cs with
      | [] => [[c]]
      | piece :: pieces => (c :: piece) :: pieces

/-- The pieces joined with `sep` between neighbours. -/
def joinWith (sep : Text) : List Text → Text
  | [] => []
  | [piece] => piece
  | piece :: pieces => piece ++ sep ++ joinWith sep pieces

/-- The order by code point; a text comes after its own beginnings. -/
def le (a b : Text) : Bool := !List.lex b a (· < ·)

/-- Texts in increasing order; equal texts keep their places. -/
def sort (ts : List Text) : List Text := ts.mergeSort le

/-- The decimal digits of a number. -/
def ofNat (n : Nat) : Text := ofChars (Nat.toDigits 10 n)

/-- The decimal digits of an integer, after a minus sign if it is negative. -/
def ofInt : Int → Text
  | .ofNat n => ofNat n
  | .negSucc n => .scalar '-' :: ofNat (n + 1)

/-- The decimal digits of a number, with zeros in front up to `width` digits. -/
def padded (width n : Nat) : Text :=
  let digits := ofNat n
  List.replicate (width - digits.length) (.scalar '0') ++ digits

/-- The hexadecimal digits of a number in lower case, with zeros in front up to `width`. -/
def paddedHex (width n : Nat) : Text :=
  let digits := ofChars (Nat.toDigits 16 n)
  List.replicate (width - digits.length) (.scalar '0') ++ digits

/-- The value of a hexadecimal digit. -/
def hexDigit? (c : CodePoint) : Option Nat :=
  if '0' ≤ c ∧ c ≤ '9' then some (c.toNat - 48)
  else if 'a' ≤ c ∧ c ≤ 'f' then some (c.toNat - 97 + 10)
  else if 'A' ≤ c ∧ c ≤ 'F' then some (c.toNat - 65 + 10)
  else none

/-- Every character `a` replaced by `b`. -/
def replaceChar (a b : CodePoint) (t : Text) : Text := t.map fun c => if c = a then b else c

@[simp] theorem dropHead?_nil (t : Text) : dropHead? [] t = some t := by
  cases t <;> rfl

/-- What is left after a head is what the head has to be followed by. -/
theorem dropHead?_eq_some_iff {head t rest : Text} :
    dropHead? head t = some rest ↔ t = head ++ rest := by
  induction head generalizing t with
  | nil => simp [dropHead?_nil, eq_comm]
  | cons h hs ih =>
    cases t with
    | nil => simp [dropHead?]
    | cons c cs =>
      by_cases same : h = c
      · simp [dropHead?, same, ih]
      · simp [dropHead?, same, Ne.symm same]

theorem dropTail_append (t tail : Text) : dropTail (t ++ tail) tail = t := by
  rw [dropTail, if_pos (by simp)]
  simp

/-- A text is cut first at what it opens with. -/
theorem cutAt?_append (needle t : Text) : cutAt? needle (needle ++ t) = some ([], t) := by
  have opens : dropHead? needle (needle ++ t) = some t := dropHead?_eq_some_iff.2 rfl
  cases whole : needle ++ t with
  | nil => rw [cutAt?, ← whole, opens, Option.map_some]
  | cons c cs => rw [cutAt?, ← whole, opens]

/-- A cut loses nothing. -/
theorem eq_of_cutAt? {needle t before after : Text} (found : cutAt? needle t = some (before, after)) :
    t = before ++ needle ++ after := by
  induction t generalizing before after with
  | nil =>
    cases needle with
    | nil => simp_all [cutAt?]
    | cons => simp [cutAt?, dropHead?] at found
  | cons c cs ih =>
    unfold cutAt? at found
    split at found
    · rename_i rest here
      obtain ⟨rfl, rfl⟩ := Prod.mk.inj (Option.some.inj found)
      simpa using dropHead?_eq_some_iff.1 here
    · obtain ⟨⟨b, a⟩, later, same⟩ := Option.map_eq_some_iff.1 found
      obtain ⟨rfl, rfl⟩ := Prod.mk.inj same
      simp [ih later]

end Text
end ModuleAtlas
