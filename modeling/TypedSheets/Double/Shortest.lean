import TypedSheets.Double.Basic

/-!
# The shortest decimal of a double

A double stands for an interval of reals, those that round to it. Its shortest
decimal is the one of fewest digits inside that interval, and of two such the
nearer. For each number of digits only the two neighbours of the number on the
grid of such decimals matter, so the search is a walk over digit counts.

## Main definitions

* `Decimal` — digits and the place of the point.
* `Double.shortest` — the shortest decimal of a positive significand and exponent.
-/

namespace TypedSheets

/-- The decimal `0.digits * 10 ^ point`. The digits are read as one number. -/
structure Decimal where
  digits : Nat
  point : Int
  deriving DecidableEq, Repr

/-- Which way to go when two shortest decimals are equally near. -/
inductive Tie where
  /-- To the larger one. -/
  | up
  /-- To the one whose last digit is even. -/
  | even
  deriving DecidableEq, Repr

namespace Double

/-- Numerator of `10 ^ e`. -/
def tenNum (e : Int) : Nat := Nat.pow 10 e.toNat

/-- Denominator of `10 ^ e`. -/
def tenDen (e : Int) : Nat := Nat.pow 10 (-e).toNat

/-- Numerator of `2 ^ e`. -/
def twoNum (e : Int) : Nat := Nat.pow 2 e.toNat

/-- Denominator of `2 ^ e`. -/
def twoDen (e : Int) : Nat := Nat.pow 2 (-e).toNat

/-- Whether `significand * 2 ^ exponent` is below `10 ^ k`. -/
def belowTen (significand : Nat) (exponent k : Int) : Bool :=
  significand * twoNum exponent * tenDen k < tenNum k * twoDen exponent

/-- The least `k` with `significand * 2 ^ exponent` below `10 ^ k`: an estimate from
the number of bits, which can be one too small, is moved up until it holds. -/
def pointOf (significand : Nat) (exponent : Int) : Int :=
  let bits : Int := Nat.log2 significand + exponent
  let guess := Int.fdiv (bits * 30103) 100000
  if belowTen significand exponent guess then guess
  else if belowTen significand exponent (guess + 1) then guess + 1
  else guess + 2

/-- The decimal with the given number of digits that stands for the number, if one
of its two neighbours on that grid lies in the interval of the number.

Lengths are counted in quarters of the unit of the significand: the number is
`4 * significand` quarters, the interval reaches two quarters up, and two down or,
where the numbers below are twice as dense, one. Its ends belong to it when the
significand is even. -/
def neighbour? (tie : Tie) (significand : Nat) (exponent point : Int) (count : Nat) :
    Option Nat :=
  let step := point - count
  -- one quarter and one grid step over a common denominator
  let quarter := twoNum (exponent - 2) * tenDen step
  let grid := tenNum step * twoDen (exponent - 2)
  let value := 4 * significand * quarter
  let below := value / grid
  let reach := if significand = fullPrecision ∧ minExponent < exponent then 1 else 2
  let low := (4 * significand - reach) * quarter
  let high := (4 * significand + 2) * quarter
  let closed := significand % 2 = 0
  let inside (x : Nat) : Bool :=
    if closed then low ≤ x * grid && x * grid ≤ high else low < x * grid && x * grid < high
  let above := below + 1
  match inside below, inside above with
  | false, false => none
  | true, false => some below
  | false, true => some above
  | true, true =>
    let middle := (2 * below + 1) * grid
    if 2 * value < middle then some below
    else if middle < 2 * value then some above
    else match tie with
      | .up => some above
      | .even => some (below + below % 2)

/-- The shortest decimal of the positive number `significand * 2 ^ exponent`.
Seventeen digits always suffice. -/
def shortest (tie : Tie) (significand : Nat) (exponent : Int) : Decimal :=
  let point := pointOf significand exponent
  let found := (List.range' 1 17).findSome? fun count =>
    (neighbour? tie significand exponent point count).map fun digits => (count, digits)
  match found with
  | some (count, digits) =>
    -- rounding up past the last digit gives the next power of ten
    if digits = Nat.pow 10 count then ⟨1, point + 1⟩ else ⟨digits, point⟩
  | none => ⟨0, point⟩

end Double
end TypedSheets
