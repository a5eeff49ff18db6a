import ModuleAtlas.Number.Reading
import Mathlib.Algebra.Group.Nat.Defs
import Mathlib.Data.List.Basic
/-!
Digits. What is written for a number has decimal digits only, does not open with a needless zero
(`isNumeral_ofNat`), and means the number (`decimalValue_ofNat`); no two integers are written alike
(`ofInt_injective`). Four hexadecimal digits are written for a number of 16 bits (`paddedHex_four`),
and mean it.
-/
namespace ModuleAtlas

namespace Text

theorem isDigit_iff {c : CodePoint} : c.isDigit ↔ 48 ≤ c.toNat ∧ c.toNat ≤ 57 := by
  simp only [CodePoint.isDigit, Bool.and_eq_true, decide_eq_true_eq]

/-- A digit among characters is one among code points. -/
theorem isDigit_of_char {c : Char} (digit : c.isDigit) : CodePoint.isDigit c := by
  rw [Char.isDigit, Bool.and_eq_true, decide_eq_true_eq, decide_eq_true_eq] at digit
  exact isDigit_iff.2 ⟨digit.1, digit.2⟩

/-- A decimal digit of the basic alphabet has its own value. -/
theorem digit?_of_isDigit {c : CodePoint} (digit : c.isDigit) : digit? c = some (c.toNat - 48) := by
  have bounds := isDigit_iff.1 digit
  have inside : (decide (48 ≤ c.toNat) && decide (c.toNat ≤ 48 + 9)) = true := by
    simp [bounds.1, bounds.2]
  simp only [digit?, zeros, List.find?_cons, inside, Option.map_some]

/-- The text is the decimal digits of a number: a zero, or digits that open with no zero. -/
structure IsNumeral (t : Text) : Prop where
  nonempty : t ≠ []
  digits : ∀ c ∈ t, c.isDigit
  opening : t.head? = some (.scalar '0') → t = [.scalar '0']

/-- A numeral is a single zero or opens with another digit. -/
theorem IsNumeral.cases {t : Text} (numeral : IsNumeral t) :
    t = [.scalar '0'] ∨ ∃ c digits, t = c :: digits ∧ c ≠ '0' := by
  cases t with
  | nil => exact absurd rfl numeral.nonempty
  | cons c digits =>
    by_cases zero : c = '0'
    · exact .inl (numeral.opening (congrArg some zero))
    · exact .inr ⟨c, digits, rfl, zero⟩

theorem isNumeral_ofNat (n : Nat) : IsNumeral (ofNat n) := by
  have opening : (Nat.toDigits 10 n).head? = some '0' → Nat.toDigits 10 n = ['0'] := by
    induction n using Nat.strongRecOn with
    | ind n ih =>
      rw [Nat.toDigits_eq_if (by decide)]
      split
      · rename_i small
        intro zero
        simpa using zero
      · rename_i large
        intro zero
        rw [List.head?_append_of_ne_nil _ Nat.toDigits_ne_nil] at zero
        -- A zero in front of the last digit is all that is written for the number before it.
        have value := Nat.ofDigitChars_ten_toDigits (n := n / 10)
        rw [ih (n / 10) (by omega) zero] at value
        simp only [Nat.ofDigitChars, List.foldl_cons, List.foldl_nil] at value
        omega
  refine ⟨by simp [ofNat, ofChars, Nat.toDigits_ne_nil], fun c inside => ?_, fun zero => ?_⟩
  · obtain ⟨digit, among, rfl⟩ := List.mem_map.1 inside
    exact isDigit_of_char (Nat.isDigit_of_mem_toDigits (by decide) (by decide) among)
  · rw [ofNat, ofChars, List.head?_map] at zero
    obtain ⟨c, first, same⟩ := Option.map_eq_some_iff.1 zero
    cases same
    rw [ofNat, opening first]
    rfl

theorem ofChars_injective {left right : List Char} (same : ofChars left = ofChars right) :
    left = right :=
  List.map_injective_iff.2 (fun _ _ same => CodePoint.scalar.inj same) same

theorem ofNat_injective {left right : Nat} (same : ofNat left = ofNat right) : left = right := by
  have values := congrArg (fun t => Nat.ofDigitChars 10 t 0) (ofChars_injective same)
  simpa using values

theorem isDigit_or_minus_of_mem_ofInt {n : Int} {c : CodePoint} (inside : c ∈ ofInt n) :
    c.isDigit ∨ c = '-' := by
  cases n with
  | ofNat n => exact .inl ((isNumeral_ofNat n).digits c inside)
  | negSucc n => exact (List.mem_cons.1 inside).symm.imp_left ((isNumeral_ofNat (n + 1)).digits c)

theorem ofInt_injective {left right : Int} (same : ofInt left = ofInt right) : left = right := by
  have noSign : ∀ {n : Nat} {t : Text}, ofNat n ≠ .scalar '-' :: t := by
    intro n t signed
    have digit := (isNumeral_ofNat n).digits '-' (by simp [signed])
    simp [CodePoint.isDigit] at digit
  cases left with
  | ofNat left =>
    cases right with
    | ofNat right => rw [ofNat_injective same]
    | negSucc right => exact absurd same noSign
  | negSucc left =>
    cases right with
    | ofNat right => exact absurd same.symm noSign
    | negSucc right =>
      obtain rfl : left = right := by simpa using ofNat_injective (List.cons.inj same).2
      rfl

theorem length_ofNat_le_iff {n k : Nat} (some : 0 < k) : (ofNat n).length ≤ k ↔ n < 10 ^ k :=
  by rw [ofNat, ofChars, List.length_map]; exact Nat.length_toDigits_le_iff (by decide) some

end Text

namespace Number

theorem decimalValue_ofNat (n : Nat) : decimalValue (Text.ofNat n) = n := by
  have run : ∀ cs : List Char, (∀ c ∈ cs, c.isDigit) → ∀ n,
      (Text.ofChars cs).foldl (fun n c => n * 10 + (Text.digit? c).getD 0) n =
        Nat.ofDigitChars 10 cs n := by
    intro cs digits
    induction cs with
    | nil => simp
    | cons c cs ih =>
      intro n
      rw [Text.ofChars_cons, List.foldl_cons, Nat.ofDigitChars_cons,
        ih fun c inside => digits c (by simp [inside]),
        Text.digit?_of_isDigit (Text.isDigit_of_char (digits c (by simp))), Nat.mul_comm]
      rfl
  have digits : ∀ c ∈ Nat.toDigits 10 n, c.isDigit := fun c inside =>
    Nat.isDigit_of_mem_toDigits (by decide) (by decide) inside
  exact (run _ digits 0).trans Nat.ofDigitChars_ten_toDigits

end Number

namespace Text

/-! ## Hexadecimal digits -/

theorem hexDigit?_digitChar {n : Nat} (small : n < 16) : hexDigit? n.digitChar = some n := by
  have all : ∀ n < 16, hexDigit? (Nat.digitChar n) = some n := by decide
  exact all n small

theorem hexDigit?_lt {c : CodePoint} {n : Nat} (digit : hexDigit? c = some n) : n < 16 := by
  have bounds : ∀ a b : CodePoint, a ≤ c ∧ c ≤ b → a.toNat ≤ c.toNat ∧ c.toNat ≤ b.toNat :=
    fun _ _ inside => inside
  unfold hexDigit? at digit
  split at digit
  · rename_i inside
    have := bounds _ _ inside
    cases digit
    simp at this ⊢
    omega
  · split at digit
    · rename_i inside
      have := bounds _ _ inside
      cases digit
      simp at this ⊢
      omega
    · split at digit
      · rename_i inside
        have := bounds _ _ inside
        cases digit
        simp at this ⊢
        omega
      · cases digit

/-- The last of several digits is that of the remainder. -/
theorem paddedHex_succ {width n : Nat} (some : 0 < width) :
    paddedHex (width + 1) n = paddedHex width (n / 16) ++
      [CodePoint.scalar (Nat.digitChar (n % 16))] := by
  have digits := Nat.toDigits_eq_if (n := n) (b := 16) (by decide)
  by_cases small : n < 16
  · rw [if_pos small] at digits
    have zeros : List.replicate width (CodePoint.scalar '0') =
        List.replicate (width - 1) (CodePoint.scalar '0') ++ [.scalar '0'] := by
      rw [← List.replicate_succ', Nat.sub_add_cancel some]
    simp [paddedHex, ofChars, digits, Nat.div_eq_of_lt small, Nat.mod_eq_of_lt small, zeros]
  · rw [if_neg small] at digits
    simp [paddedHex, ofChars, digits]

theorem paddedHex_four {n : Nat} (small : n < 0x10000) :
    paddedHex 4 n = [↑(Nat.digitChar (n / 4096)), ↑(Nat.digitChar (n / 256 % 16)),
      ↑(Nat.digitChar (n / 16 % 16)), ↑(Nat.digitChar (n % 16))] := by
  have first : paddedHex 1 (n / 16 / 16 / 16) = [↑(Nat.digitChar (n / 16 / 16 / 16))] := by
    rw [paddedHex, Nat.toDigits_of_lt_base (by omega)]
    rfl
  rw [paddedHex_succ (by decide), paddedHex_succ (by decide), paddedHex_succ (by decide), first]
  simp [Nat.div_div_eq_div_mul]

end Text
end ModuleAtlas
