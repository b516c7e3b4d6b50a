/-!
# Integer text

The decimal spellings the sheets use: ASCII digits, possibly behind one sign.
Nothing else is allowed around them, so callers trim first.

## Main definitions

* `decimalValue` — the number a run of digits stands for.
* `natural?` — one or more digits; `index?` also allows a plus sign.
* `integer?` — one optional sign and one or more digits.
* `wideInteger?` — `integer?` inside the 128-bit range.
-/

namespace TypedSheets
namespace Text

/-- The value of an ASCII digit. -/
def digitValue (c : Char) : Nat := c.toNat - '0'.toNat

/-- The number a run of decimal digits stands for. -/
def decimalValue (cs : List Char) : Nat := cs.foldl (fun n c => 10 * n + digitValue c) 0

/-- Reads one or more digits and nothing else. -/
def natural? (cs : List Char) : Option Nat :=
  if !cs.isEmpty && cs.all Char.isDigit then some (decimalValue cs) else none

/-- Reads an integer: one optional sign, then one or more digits. -/
def integer? : List Char → Option Int
  | '+' :: cs => (natural? cs).map Int.ofNat
  | '-' :: cs => (natural? cs).map fun n => -(Int.ofNat n)
  | cs => (natural? cs).map Int.ofNat

/-- The largest number an index may have: sixty-four bits, all set. -/
def maxIndex : Nat := 18446744073709551615

/-- The least integer of sixty-four bits, two's complement. -/
def minLong : Int := -9223372036854775808

/-- The greatest integer of 128 bits, two's complement. -/
def maxWide : Int := 170141183460469231731687303715884105727

/-- Reads an index: an optional plus sign, then digits, up to `maxIndex`. -/
def index? : List Char → Option Nat
  | '+' :: cs => (natural? cs).filter (· ≤ maxIndex)
  | cs => (natural? cs).filter (· ≤ maxIndex)

/-- Reads an integer that fits in 128 bits, two's complement. -/
def wideInteger? (cs : List Char) : Option Int :=
  (integer? cs).filter fun n => -maxWide - 1 ≤ n && n ≤ maxWide

end Text
end TypedSheets
