import ModuleAtlas.Number.Double
import ModuleAtlas.Text.Basic
/-!
The text of a double: the fewest decimal digits that read back as the same number, of those
the nearest to it. The point is written in place for moderate exponents, and otherwise after
the first digit with the exponent behind.
-/
namespace ModuleAtlas.Double

/-- `num / den` is between the two ratios, which count as between when `ends` holds. -/
def between (ends : Bool) (lowNum highNum den num den' : Nat) : Bool :=
  let l := lowNum * den'
  let x := num * den
  let h := highNum * den'
  if ends then l ≤ x && x ≤ h else l < x && x < h

/-- The exponent of the leading decimal digit of a ratio. -/
def leadingExponent (num den : Nat) : Int :=
  let guess : Int := ((Nat.log2 num : Int) - (Nat.log2 den : Int)) * 30103 / 100000
  let atLeast (e : Int) : Bool :=
    if e < 0 then den ≤ num * tenTo (-e).toNat else den * tenTo e.toNat ≤ num
  if atLeast (guess + 1) then guess + 1 else if atLeast guess then guess else guess - 1

/-- The digits and the power of ten of the shortest decimal that reads back as the positive
double `mantissa * 2 ^ exponent`. -/
def shortestDigits (mantissa : Nat) (exponent : Int) : Nat × Int :=
  -- Four times the number and the middles to its neighbours, over one denominator.
  let lowGap := if mantissa = twoTo 52 && exponent > -1074 then 1 else 2
  let up : Nat := twoTo exponent.toNat
  let den : Nat := 4 * twoTo (-exponent).toNat
  let value := 4 * mantissa * up
  let low := (4 * mantissa - lowGap) * up
  let high := (4 * mantissa + 2) * up
  let ends := mantissa % 2 == 0
  let lead := leadingExponent value den
  let attempt (count : Nat) : Option (Nat × Int) :=
    let power : Int := lead - (count : Int)
    let grid : Nat × Nat :=
      if power < 0 then (value * tenTo (-power).toNat, den) else (value, den * tenTo power.toNat)
    let floor := grid.1 / grid.2
    let rest := grid.1 % grid.2
    let fits (n : Nat) : Bool :=
      if power < 0 then between ends low high den n (tenTo (-power).toNat)
      else between ends low high den (n * tenTo power.toNat) 1
    let down := fits floor
    let above := fits (floor + 1)
    if down && above then
      some (if 2 * rest < grid.2 || (2 * rest = grid.2 && floor % 2 = 0) then floor else floor + 1,
        power)
    else if down then some (floor, power)
    else if above then some (floor + 1, power)
    else none
  ((List.range 18).findSome? attempt).getD (0, 0)

/-- A digit string without the zeros at its end, and how many there were. -/
def withoutZeros (digits : Text) : Text × Nat :=
  let kept := Text.trimEndWhile (· == .scalar '0') digits
  (kept, digits.length - kept.length)

/-- The text of a positive finite double. -/
def positiveText (mantissa : Nat) (exponent : Int) : Text :=
  let (n, power) := shortestDigits mantissa exponent
  let (digits, zeros) := withoutZeros (Text.ofNat n)
  -- The point stands after `point` digits.
  let point : Int := digits.length + zeros + power
  if -4 < point && point ≤ 16 then
    if point ≤ 0 then "0." ++ List.replicate (-point).toNat (CodePoint.scalar '0') ++ digits
    else if (digits.length : Int) ≤ point then
      digits ++ List.replicate (point - digits.length).toNat (CodePoint.scalar '0') ++ ".0"
    else digits.take point.toNat ++ .scalar '.' :: digits.drop point.toNat
  else
    let shown := point - 1
    let mark : Text :=
      if digits.length ≤ 1 then digits else digits.take 1 ++ .scalar '.' :: digits.drop 1
    mark ++ .scalar 'e' :: (if shown < 0 then .scalar '-' else .scalar '+') :: Text.padded 2 shown.natAbs

/-- The text of a finite double. -/
def finiteText (negative : Bool) (mantissa : Nat) (exponent : Int) : Text :=
  let sign : Text := if negative then "-" else []
  sign ++ if mantissa = 0 then ("0.0" : Text) else positiveText mantissa exponent

/-- The text of a double, with the given words for the two that are not finite. -/
def text (nanWord infiniteWord : Text) : Double → Text
  | finite a m e => finiteText a m e
  | infinite a => if a then .scalar '-' :: infiniteWord else infiniteWord
  | nan => nanWord

end ModuleAtlas.Double
