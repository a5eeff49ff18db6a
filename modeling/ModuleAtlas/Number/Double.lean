/-!
Numbers in the double format: a sign, 53 bits and an exponent of two. Every exact ratio has a
nearest double, of two equally near the even one (`nearest`), and arithmetic is exact
arithmetic followed by that rounding.
-/
namespace ModuleAtlas

/-- A double. A finite one is `mantissa * 2 ^ exponent`, where the exponent is the least
possible: the mantissa has 53 bits, or the exponent is -1074. -/
inductive Double
  | finite (negative : Bool) (mantissa : Nat) (exponent : Int)
  | infinite (negative : Bool)
  | nan
deriving DecidableEq, Repr

namespace Double

/-- A power of two. -/
def twoTo (exponent : Nat) : Nat := Nat.pow 2 exponent

/-- A power of ten. -/
def tenTo (exponent : Nat) : Nat := Nat.pow 10 exponent

/-- Zero with a sign. -/
def zero (negative : Bool) : Double := finite negative 0 (-1074)

/-- The double with a mantissa of at most 53 bits and an exponent, after rounding; a carry to
the 54th bit is a power of two, and too large an exponent is infinity. -/
def ofRounded (negative : Bool) (mantissa : Nat) (exponent : Int) : Double :=
  let (m, e) := if mantissa = twoTo 53 then (twoTo 52, exponent + 1) else (mantissa, exponent)
  if e > 971 then infinite negative else finite negative m e

/-- The nearest natural number to a ratio; a half goes to the even neighbour. -/
def roundRatio (num den : Nat) : Nat :=
  let q := num / den
  let twice := 2 * (num % den)
  if twice < den then q
  else if den < twice then q + 1
  else if q % 2 = 0 then q else q + 1

/-- A ratio divided by a power of two, as a ratio. -/
def scaled (num den : Nat) (exponent : Int) : Nat × Nat :=
  if exponent < 0 then (num * twoTo (-exponent).toNat, den) else (num, den * twoTo exponent.toNat)

/-- The nearest double to `num / den`, for a denominator that is not zero. -/
def nearest (negative : Bool) (num den : Nat) : Double :=
  if num = 0 then zero negative
  else
    let guess : Int := (Nat.log2 num : Int) - (Nat.log2 den : Int) - 52
    let (n, d) := scaled num den guess
    let exponent := max (if n / d < twoTo 52 then guess - 1 else guess) (-1074)
    let (n, d) := scaled num den exponent
    ofRounded negative (roundRatio n d) exponent

/-- The nearest double to `digits * 10 ^ exponent`. Exponents beyond the range of doubles are
answered without computing the power. -/
def ofDecimal (negative : Bool) (digits : Nat) (exponent : Int) : Double :=
  let size : Int := (Nat.log2 digits : Int) * 3 / 10 + exponent
  if digits = 0 then zero negative
  else if size > 310 then infinite negative
  else if size < -330 - (Nat.log2 digits : Int) then zero negative
  else if exponent < 0 then nearest negative digits (tenTo (-exponent).toNat)
  else nearest negative (digits * tenTo exponent.toNat) 1

/-- The nearest double to `n * 2 ^ exponent`; zero gets the sign given for it. -/
def ofScaled (negativeZero : Bool) (n : Int) (exponent : Int) : Double :=
  if n = 0 then zero negativeZero
  else
    let (num, den) := scaled n.natAbs 1 (-exponent)
    nearest (n < 0) num den

/-- The nearest double to an integer. -/
def ofInt (n : Int) : Double := ofScaled false n 0

/-- The mantissa with its sign. -/
def signed (negative : Bool) (mantissa : Nat) : Int :=
  if negative then -(mantissa : Int) else mantissa

/-- The sum, rounded. -/
def add : Double → Double → Double
  | nan, _ | _, nan => nan
  | infinite a, infinite b => if a = b then infinite a else nan
  | infinite a, finite .. | finite .., infinite a => infinite a
  | finite a m e, finite b n f =>
    let low := min e f
    ofScaled (a && b)
      (signed a (m * twoTo (e - low).toNat) + signed b (n * twoTo (f - low).toNat)) low

/-- The product, rounded. -/
def mul : Double → Double → Double
  | nan, _ | _, nan => nan
  | infinite a, infinite b => infinite (a != b)
  | infinite a, finite b m _ | finite b m _, infinite a =>
    if m = 0 then nan else infinite (a != b)
  | finite a m e, finite b n f => ofScaled (a != b) (signed (a != b) (m * n)) (e + f)

/-- The number with the other sign. -/
def neg : Double → Double
  | nan => nan
  | infinite a => infinite (!a)
  | finite a m e => finite (!a) m e

/-- The integer between zero and the number that is nearest to the number. -/
def truncate (negative : Bool) (mantissa : Nat) (exponent : Int) : Int :=
  signed negative <|
    if exponent < 0 then mantissa / twoTo (-exponent).toNat else mantissa * twoTo exponent.toNat

/-- The number is not zero. A number that is not a number counts as not zero. -/
def isNonzero : Double → Bool
  | finite _ m _ => m != 0
  | _ => true

/-- The number equals an integer. -/
def isInt (d : Double) (n : Int) : Bool :=
  match d with
  | finite a m e => truncate a m e == n && (0 ≤ e || m % twoTo (-e).toNat == 0)
  | _ => false

/-- The two are the same number; zeros are the same whatever their signs. -/
def same : Double → Double → Bool
  | finite a m e, finite b n f => (m == 0 && n == 0) || (a == b && m == n && e == f)
  | x, y => x == y

/-- The 64 bits of the format. -/
def bits : Double → Nat
  | nan => 0x7ff * twoTo 52 + twoTo 51
  | infinite a => (if a then twoTo 63 else 0) + 0x7ff * twoTo 52
  | finite a m e =>
    (if a then twoTo 63 else 0) +
      if m < twoTo 52 then m else (e + 1075).toNat * twoTo 52 + (m - twoTo 52)

end Double
end ModuleAtlas
