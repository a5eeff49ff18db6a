import ModuleAtlas.Number.Reading
import Mathlib.Algebra.Order.Field.Power
import Mathlib.Algebra.Order.Field.Rat
import Mathlib.Tactic.Linarith
import Mathlib.Tactic.LinearCombination
import Mathlib.Tactic.Ring
/-!
Doubles as they come about: rounded to 53 bits, with the least possible exponent (`IsReduced`).
Whatever is read or computed is reduced, and of reduced doubles two are the same exactly if they are
the same number (`same_finite_iff`).
-/
namespace ModuleAtlas.Double

/-- The mantissa has 53 bits, or the exponent is the least there is. -/
def IsReduced : Double → Prop
  | finite _ m e => m < 2 ^ 53 ∧ -1074 ≤ e ∧ (2 ^ 52 ≤ m ∨ e = -1074)
  | infinite _ => True
  | nan => True

theorem isReduced_zero (negative : Bool) : IsReduced (zero negative) := by
  simp [zero, IsReduced]

/-! ## Rounding -/

theorem isReduced_ofRounded (negative : Bool) {m : Nat} {e : Int} (small : m ≤ 2 ^ 53)
    (least : -1074 ≤ e) (full : 2 ^ 52 ≤ m ∨ e = -1074) : IsReduced (ofRounded negative m e) := by
  have power : twoTo 53 = 2 ^ 53 := rfl
  have half : twoTo 52 = 2 ^ 52 := rfl
  by_cases carry : m = 2 ^ 53
  · by_cases large : e + 1 > 971
    · simp [ofRounded, carry, power, large, IsReduced]
    · simp only [ofRounded, carry, power, half, large, if_true, if_false, IsReduced]
      omega
  · by_cases large : e > 971
    · simp only [ofRounded, carry, power, large, if_true, if_false, IsReduced]
    · simp only [ofRounded, carry, power, large, if_false, IsReduced]
      omega

theorem roundRatio_bounds (num den : Nat) :
    num / den ≤ roundRatio num den ∧ roundRatio num den ≤ num / den + 1 := by
  simp only [roundRatio]
  split
  · omega
  · split
    · omega
    · split <;> omega

/-- A ratio divided by a power of two is below another power of two as the ratio is. -/
theorem scaled_lt_iff (num : Nat) {den : Nat} (pos : 0 < den) (e : Int) (k : Nat) :
    (scaled num den e).1 / (scaled num den e).2 < 2 ^ k ↔ (num : ℚ) / den < 2 ^ (k + e) := by
  have denPos : (0 : ℚ) < den := by exact_mod_cast pos
  by_cases negative : e < 0
  · obtain ⟨a, rfl⟩ : ∃ a : Nat, e = -a := ⟨(-e).toNat, by omega⟩
    have powerPos : (0 : ℚ) < 2 ^ a := by positivity
    have split : (2 : ℚ) ^ ((k : Int) + -(a : Int)) = 2 ^ k / 2 ^ a := by
      rw [← sub_eq_add_neg, zpow_sub₀ two_ne_zero, zpow_natCast, zpow_natCast]
    have there : scaled num den (-a) = (num * 2 ^ a, den) := by
      simp only [scaled, negative, if_true, neg_neg, Int.toNat_natCast]
      rfl
    rw [there, Nat.div_lt_iff_lt_mul pos, split, div_lt_div_iff₀ denPos powerPos]
    exact_mod_cast Iff.rfl
  · obtain ⟨a, rfl⟩ : ∃ a : Nat, e = a := ⟨e.toNat, by omega⟩
    have split : (2 : ℚ) ^ ((k : Int) + (a : Int)) = 2 ^ k * 2 ^ a := by
      rw [zpow_add₀ two_ne_zero, zpow_natCast, zpow_natCast]
    have there : scaled num den a = (num, den * 2 ^ a) := by
      simp only [scaled, negative, if_false, Int.toNat_natCast]
      rfl
    have order : 2 ^ k * (den * 2 ^ a) = 2 ^ k * 2 ^ a * den := by ring
    rw [there, Nat.div_lt_iff_lt_mul (by positivity), split, div_lt_iff₀ denPos, order]
    exact_mod_cast Iff.rfl

/-- A ratio lies between two powers of two, as its parts have digits. -/
theorem ratio_bounds {num den : Nat} (some : num ≠ 0) (pos : den ≠ 0) :
    (2 : ℚ) ^ ((num.log2 : Int) - den.log2 - 1) ≤ num / den ∧
      (num : ℚ) / den < 2 ^ ((num.log2 : Int) - den.log2 + 1) := by
  have denPos : (0 : ℚ) < den := by exact_mod_cast Nat.pos_of_ne_zero pos
  have numLow : (2 : ℚ) ^ num.log2 ≤ num := by exact_mod_cast Nat.log2_self_le some
  have numHigh : (num : ℚ) < 2 ^ (num.log2 + 1) := by exact_mod_cast Nat.lt_log2_self
  have denLow : (2 : ℚ) ^ den.log2 ≤ den := by exact_mod_cast Nat.log2_self_le pos
  have denHigh : (den : ℚ) < 2 ^ (den.log2 + 1) := by exact_mod_cast Nat.lt_log2_self
  constructor
  · have split : (2 : ℚ) ^ ((num.log2 : Int) - den.log2 - 1) = 2 ^ num.log2 / 2 ^ (den.log2 + 1) := by
      rw [sub_sub, zpow_sub₀ two_ne_zero, zpow_natCast]
      norm_cast
    rw [split]
    exact div_le_div₀ (by positivity) numLow denPos denHigh.le
  · have split : (2 : ℚ) ^ ((num.log2 : Int) - den.log2 + 1) = 2 ^ (num.log2 + 1) / 2 ^ den.log2 := by
      rw [sub_add_eq_add_sub, zpow_sub₀ two_ne_zero, zpow_natCast]
      norm_cast
    rw [split]
    exact div_lt_div₀ numHigh denLow (by positivity) (by positivity)

/-- With the exponent that is tried first, the mantissa of a ratio has 53 bits. -/
theorem first_bounds {num den : Nat} (some : num ≠ 0) (pos : den ≠ 0) {guess first : Int}
    (guessed : guess = (num.log2 : Int) - den.log2 - 52)
    (chosen : first = if (scaled num den guess).1 / (scaled num den guess).2 < twoTo 52 then guess - 1
      else guess) :
    (2 : ℚ) ^ (52 + first) ≤ num / den ∧ (num : ℚ) / den < 2 ^ (53 + first) := by
  obtain ⟨low, high⟩ := ratio_bounds some pos
  have least : (num.log2 : Int) - den.log2 - 1 = 51 + guess := by omega
  have most : (num.log2 : Int) - den.log2 + 1 = 53 + guess := by omega
  rw [least] at low
  rw [most] at high
  have whole := scaled_lt_iff num (Nat.pos_of_ne_zero pos) guess 52
  by_cases small : (scaled num den guess).1 / (scaled num den guess).2 < twoTo 52
  · have lower : 52 + first = 51 + guess := by rw [chosen, if_pos small]; omega
    have upper : 53 + first = 52 + guess := by rw [chosen, if_pos small]; omega
    rw [lower, upper]
    exact ⟨low, whole.1 small⟩
  · have kept : first = guess := by rw [chosen, if_neg small]
    rw [kept]
    exact ⟨le_of_not_gt (mt whole.2 small), high⟩

/-- Rounded with that exponent, or with the least one if that is larger, the ratio is reduced. -/
theorem isReduced_of_bounds (negative : Bool) {num den : Nat} (pos : den ≠ 0) {first : Int}
    (low : (2 : ℚ) ^ (52 + first) ≤ num / den) (high : (num : ℚ) / den < 2 ^ (53 + first))
    {exponent : Int} (larger : exponent = max first (-1074)) :
    IsReduced (ofRounded negative
      (roundRatio (scaled num den exponent).1 (scaled num den exponent).2) exponent) := by
  have fits := scaled_lt_iff num (Nat.pos_of_ne_zero pos)
  have rounded := roundRatio_bounds (scaled num den exponent).1 (scaled num den exponent).2
  have below : (scaled num den exponent).1 / (scaled num den exponent).2 < 2 ^ 53 := by
    refine (fits exponent 53).2 (lt_of_lt_of_le high ?_)
    exact zpow_le_zpow_right₀ (by norm_num) (by push_cast; omega)
  have full : 2 ^ 52 ≤ (scaled num den exponent).1 / (scaled num den exponent).2 ∨
      exponent = -1074 := by
    by_cases kept : exponent = first
    · left
      rw [kept]
      exact le_of_not_gt fun under => absurd ((fits first 52).1 under) (not_lt_of_ge low)
    · right
      omega
  refine isReduced_ofRounded negative (by omega) (by omega) ?_
  rcases full with full | least
  · exact .inl (full.trans rounded.1)
  · exact .inr least

theorem isReduced_nearest (negative : Bool) (num : Nat) {den : Nat} (pos : den ≠ 0) :
    IsReduced (nearest negative num den) := by
  rw [nearest]
  split
  · exact isReduced_zero negative
  · rename_i some
    obtain ⟨low, high⟩ := first_bounds some pos rfl rfl
    exact isReduced_of_bounds negative pos low high rfl

/-! ## Reading and computing -/

theorem isReduced_ofDecimal (negative : Bool) (digits : Nat) (exponent : Int) :
    IsReduced (ofDecimal negative digits exponent) := by
  have ten : ∀ k, tenTo k ≠ 0 := fun k => (Nat.pow_pos (by decide : 0 < 10)).ne'
  simp only [ofDecimal]
  split
  · exact isReduced_zero negative
  · split
    · trivial
    · split
      · exact isReduced_zero negative
      · split
        · exact isReduced_nearest negative digits (ten _)
        · exact isReduced_nearest negative _ one_ne_zero

theorem isReduced_ofScaled (negativeZero : Bool) (n exponent : Int) :
    IsReduced (ofScaled negativeZero n exponent) := by
  have two : ∀ k, 1 * twoTo k ≠ 0 := fun k => by
    rw [Nat.one_mul]
    exact (Nat.pow_pos (by decide : 0 < 2)).ne'
  simp only [ofScaled]
  split
  · exact isReduced_zero negativeZero
  · rw [scaled]
    split
    · exact isReduced_nearest _ _ one_ne_zero
    · exact isReduced_nearest _ _ (two _)

theorem isReduced_add (a b : Double) : IsReduced (add a b) := by
  cases a <;> cases b <;> simp only [add]
  all_goals first
    | trivial
    | exact isReduced_ofScaled ..
    | (split <;> trivial)

theorem IsReduced.neg {a : Double} (reduced : IsReduced a) : IsReduced a.neg := by
  cases a <;> exact reduced

theorem isReduced_readDouble? {t : Text} {d : Double} (read : Number.readDouble? t = some d) :
    IsReduced d := by
  simp only [Number.readDouble?] at read
  split at read
  · cases read
    trivial
  · split at read
    · cases read
      trivial
    · split at read <;>
      · split at read
        · cases read
        · obtain ⟨exponent, -, rfl⟩ := Option.map_eq_some_iff.1 read
          exact isReduced_ofDecimal ..

/-! ## Numbers -/

/-- The number that a sign, a mantissa and an exponent make. -/
def quantity (negative : Bool) (m : Nat) (e : Int) : ℚ := (signed negative m : ℚ) * 2 ^ e

theorem quantity_eq_zero_iff {negative : Bool} {m : Nat} {e : Int} :
    quantity negative m e = 0 ↔ m = 0 := by
  have power : (2 : ℚ) ^ e ≠ 0 := (zpow_pos two_pos e).ne'
  cases negative <;> simp [quantity, signed, power]

/-- The greater of two exponents goes with the smaller mantissa, which then has less than 53 bits. -/
theorem le_of_quantity_eq {m n : Nat} {e f : Int} (small : m < 2 ^ 53) (least : -1074 ≤ e)
    (full : 2 ^ 52 ≤ n ∨ f = -1074) (same : (m : ℚ) * 2 ^ e = n * 2 ^ f) : f ≤ e := by
  by_contra greater
  obtain ⟨k, rfl⟩ : ∃ k : Nat, f = e + 1 + k := ⟨(f - e - 1).toNat, by omega⟩
  have power : (2 : ℚ) ^ e ≠ 0 := (zpow_pos two_pos e).ne'
  have shifted : (m : ℚ) = n * (2 * 2 ^ k) := by
    rw [zpow_add₀ two_ne_zero, zpow_add₀ two_ne_zero, zpow_one, zpow_natCast] at same
    exact mul_right_cancel₀ power (by linear_combination same)
  have whole : m = n * (2 * 2 ^ k) := by exact_mod_cast shifted
  have least : n * (2 * 1) ≤ m := by
    rw [whole]
    exact Nat.mul_le_mul_left n (Nat.mul_le_mul_left 2 Nat.one_le_two_pow)
  omega

/-- Reduced doubles are the same exactly if they are the same number. -/
theorem same_finite_iff {a b : Bool} {m n : Nat} {e f : Int} (first : IsReduced (finite a m e))
    (second : IsReduced (finite b n f)) :
    same (finite a m e) (finite b n f) = true ↔ quantity a m e = quantity b n f := by
  obtain ⟨small, least, full⟩ := first
  obtain ⟨small', least', full'⟩ := second
  constructor
  · intro alike
    simp only [same, Bool.or_eq_true, Bool.and_eq_true, beq_iff_eq] at alike
    rcases alike with ⟨rfl, rfl⟩ | ⟨⟨rfl, rfl⟩, rfl⟩
    · rw [quantity_eq_zero_iff.2 rfl, quantity_eq_zero_iff.2 rfl]
    · rfl
  · intro equal
    by_cases none : m = 0
    · have other : n = 0 := quantity_eq_zero_iff.1 (equal ▸ quantity_eq_zero_iff.2 none)
      simp [same, none, other]
    · have power : (0 : ℚ) < 2 ^ e := zpow_pos two_pos e
      have power' : (0 : ℚ) < 2 ^ f := zpow_pos two_pos f
      have some : (0 : ℚ) < m := by exact_mod_cast Nat.pos_of_ne_zero none
      have positive : (0 : ℚ) < m * 2 ^ e := mul_pos some power
      have nonnegative : (0 : ℚ) ≤ n * 2 ^ f := by positivity
      obtain ⟨rfl, magnitude⟩ : a = b ∧ (m : ℚ) * 2 ^ e = n * 2 ^ f := by
        cases a <;> cases b <;>
          simp only [quantity, signed, if_true, if_false, Bool.false_eq_true, Int.cast_neg,
            Int.cast_natCast, neg_mul] at equal <;>
          simp <;> linarith
      have exponents : e = f :=
        le_antisymm (le_of_quantity_eq small' least' full magnitude.symm)
          (le_of_quantity_eq small least full' magnitude)
      subst exponents
      have mantissas : m = n := by exact_mod_cast mul_right_cancel₀ power.ne' magnitude
      simp [same, mantissas]

theorem signed_mul (a : Bool) (m k : Nat) : signed a (m * k) = signed a m * k := by
  cases a <;> simp [signed]

theorem signed_eq_mul_iff {a : Bool} {m p : Nat} (pos : 0 < p) {n : Int} :
    signed a m = n * p ↔ signed a (m / p) = n ∧ m % p = 0 := by
  have product : m % p = 0 → signed a m = signed a (m / p) * p := by
    intro rest
    rw [← signed_mul, Nat.div_mul_cancel (Nat.dvd_of_mod_eq_zero rest)]
  constructor
  · intro whole
    have divides : (p : Int) ∣ m := by
      cases a
      · exact ⟨n, by rw [Int.mul_comm]; exact whole⟩
      · exact ⟨-n, by simp only [signed, if_true] at whole; linarith⟩
    have rest : m % p = 0 := Nat.mod_eq_zero_of_dvd (by exact_mod_cast divides)
    have posInt : (p : Int) ≠ 0 := by exact_mod_cast pos.ne'
    exact ⟨Int.eq_of_mul_eq_mul_right posInt (product rest ▸ whole), rest⟩
  · rintro ⟨rfl, rest⟩
    exact product rest

/-- A double is an integer exactly if it is the same number. -/
theorem isInt_finite_iff {a : Bool} {m : Nat} {e n : Int} :
    isInt (finite a m e) n = true ↔ quantity a m e = n := by
  by_cases negative : e < 0
  · obtain ⟨k, rfl⟩ : ∃ k : Nat, e = -k := ⟨(-e).toNat, by omega⟩
    have power : (0 : ℚ) < 2 ^ k := by positivity
    have ratio : quantity a m (-k) = n ↔ signed a m = n * (2 ^ k : Nat) := by
      rw [quantity, zpow_neg, zpow_natCast, ← div_eq_mul_inv, div_eq_iff power.ne']
      exact_mod_cast Iff.rfl
    have exponent : (-(-(k : Int))).toNat = k := by omega
    have under : ¬ (0 : Int) ≤ -k := by omega
    rw [ratio, signed_eq_mul_iff (by positivity)]
    simp only [isInt, truncate, negative, if_true, exponent, under, decide_false, Bool.false_or,
      Bool.and_eq_true, beq_iff_eq]
    rfl
  · obtain ⟨k, rfl⟩ : ∃ k : Nat, e = k := ⟨e.toNat, by omega⟩
    have product : quantity a m k = n ↔ signed a (m * 2 ^ k) = n := by
      rw [quantity, zpow_natCast, signed_mul]
      exact_mod_cast Iff.rfl
    have under : (0 : Int) ≤ k := by omega
    rw [product]
    simp only [isInt, truncate, negative, if_false, Int.toNat_natCast, under, decide_true,
      Bool.true_or, Bool.and_true, beq_iff_eq]
    rfl

end ModuleAtlas.Double
