/-!
# Double-precision numbers

A finite double is a sign, a significand below `2 ^ 53` and a power of two. The
numbers here are kept in one normal form, a significand of exactly fifty-three
bits unless the exponent is the least one, so equal numbers are equal data; the
two zeros stay apart by their sign. All arithmetic is exact on natural numbers,
and rounding happens in one place.

## Main definitions

* `Double` — finite numbers, the infinities, and the undefined number.
* `Double.ofRatio` — the double nearest to a quotient, halves to the even side.
* `Double.ofDecimal` — the double nearest to `digits * 10 ^ exponent`.
* `Double.ofInt` — the double nearest to an integer.
* `Double.mul`, `Double.div` — products and quotients, rounded once.
* `Double.magnitudeLe` — comparison of the size of a number with a bound.
-/

namespace TypedSheets

/-- A double-precision number. -/
inductive Double where
  /-- The number `significand * 2 ^ exponent`, or its negative. -/
  | finite (negative : Bool) (significand : Nat) (exponent : Int)
  /-- An infinity. -/
  | infinite (negative : Bool)
  /-- The undefined number. -/
  | nan
  deriving DecidableEq, Repr, Inhabited

namespace Double

/-- The least exponent of a finite double. -/
def minExponent : Int := -1074

/-- The greatest exponent of a finite double. -/
def maxExponent : Int := 971

/-- The least significand of fifty-three bits, `2 ^ 52`. -/
def fullPrecision : Nat := 4503599627370496

/-- The zero of a given sign. -/
def zero (negative : Bool) : Double := .finite negative 0 minExponent

/-- Whether a number is finite. -/
def isFinite : Double → Bool
  | .finite .. => true
  | _ => false

/-- Whether a number is one of the two zeros. -/
def isZero : Double → Bool
  | .finite _ 0 _ => true
  | _ => false

/-! ### Rounding -/

/-- The numerator of `num / den / 2 ^ e` over `scaledDen den e`. -/
def scaledNum (num : Nat) (e : Int) : Nat := num * Nat.pow 2 (-e).toNat

/-- The denominator of `num / den / 2 ^ e` under `scaledNum num e`. -/
def scaledDen (den : Nat) (e : Int) : Nat := den * Nat.pow 2 e.toNat

/-- A quotient rounded to the nearest integer, a half to the even neighbour. -/
def roundHalfEven (num den : Nat) : Nat :=
  let quotient := num / den
  let twice := 2 * (num % den)
  if twice < den then quotient
  else if den < twice then quotient + 1
  else quotient + quotient % 2

/-- The exponent at which the quotient of two positive numbers has a significand
of fifty-three bits, or the least exponent if that one is smaller. -/
def exponentOf (num den : Nat) : Int :=
  -- the quotient lies strictly between `2 ^ (guess + 51)` and `2 ^ (guess + 53)`
  let guess : Int := (Nat.log2 num : Int) - Nat.log2 den - 52
  let exponent :=
    if scaledNum num guess < fullPrecision * scaledDen den guess then guess - 1 else guess
  max exponent minExponent

/-- The double nearest to `num / den`, with the given sign. A significand that
rounds up to fifty-four bits moves to the next exponent. -/
def ofRatio (negative : Bool) (num den : Nat) : Double :=
  if num = 0 then zero negative
  else
    let exponent := exponentOf num den
    let significand := roundHalfEven (scaledNum num exponent) (scaledDen den exponent)
    let (significand, exponent) :=
      if significand = 2 * fullPrecision then (fullPrecision, exponent + 1)
      else (significand, exponent)
    if maxExponent < exponent then .infinite negative else .finite negative significand exponent

/-- The double nearest to `digits * 10 ^ exponent`. Decimals above `10 ^ 310` are
infinite and those below `10 ^ -400` are zero without the power being formed. -/
def ofDecimal (negative : Bool) (digits : Nat) (exponent : Int) : Double :=
  if digits = 0 then zero negative
  else
    let point : Int := (Nat.toDigits 10 digits).length + exponent
    if 310 < point then .infinite negative
    else if point < -400 then zero negative
    else ofRatio negative (digits * Nat.pow 10 exponent.toNat) (Nat.pow 10 (-exponent).toNat)

/-- The double nearest to an integer. -/
def ofInt (n : Int) : Double := ofRatio (n < 0) n.natAbs 1

/-! ### Products and quotients -/

/-- Whether a number has a sign. -/
def isNegative : Double → Bool
  | .finite negative .. => negative
  | .infinite negative => negative
  | .nan => false

/-- The double nearest to a product. -/
def mul : Double → Double → Double
  | .nan, _ | _, .nan => .nan
  | .finite a m e, .finite b n f =>
    ofRatio (a != b) (m * n * Nat.pow 2 (e + f).toNat) (Nat.pow 2 (-(e + f)).toNat)
  | .infinite a, y => if y.isZero then .nan else .infinite (a != y.isNegative)
  | x, .infinite b => if x.isZero then .nan else .infinite (x.isNegative != b)

/-- The double nearest to a quotient. -/
def div : Double → Double → Double
  | .nan, _ | _, .nan => .nan
  | .finite a m e, .finite b n f =>
    if n = 0 then if m = 0 then .nan else .infinite (a != b)
    else ofRatio (a != b) (m * Nat.pow 2 (e - f).toNat) (n * Nat.pow 2 (f - e).toNat)
  | .infinite a, y => if y.isFinite then .infinite (a != y.isNegative) else .nan
  | x, .infinite b => zero (x.isNegative != b)

/-! ### Size -/

/-- Whether a finite number is at most `bound * 2 ^ scale` in size. -/
def magnitudeLe (bound : Nat) (scale : Nat) : Double → Bool
  | .finite _ significand exponent =>
    significand * Nat.pow 2 exponent.toNat ≤ bound * Nat.pow 2 scale * Nat.pow 2 (-exponent).toNat
  | _ => false

/-- Whether a number fits the single-precision range: no larger in size than its
greatest number, twenty-four bits at scale one hundred and four. -/
def fitsSingle (x : Double) : Bool := x.magnitudeLe 16777215 104

/-- The integer a finite number equals, if it is one. -/
def toInt? : Double → Option Int
  | .finite negative significand exponent =>
    let scale := Nat.pow 2 (-exponent).toNat
    if significand % scale = 0 then
      let size : Int := significand / scale * Nat.pow 2 exponent.toNat
      some (if negative then -size else size)
    else none
  | _ => none

end Double
end TypedSheets
