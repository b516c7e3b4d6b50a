import TypedSheets.Double.Shortest

/-!
# Decimal text of doubles

Both written forms of a double show its shortest digits. They differ in a few
decisions, gathered in a `DecimalStyle`: which way ties go, whether a whole number
keeps a final `.0`, and for which places of the point digits are written out
instead of scaled by a power of ten.

## Main definitions

* `DecimalStyle.plain` — always written out, no final `.0`.
* `DecimalStyle.json` — the number style of JSON documents.
* `Double.format` — the text of a double in a style.
-/

namespace TypedSheets

/-- The decisions of a written form of doubles. -/
structure DecimalStyle where
  /-- Which of two equally near shortest decimals is shown. -/
  tie : Tie
  /-- Whether a whole number ends in `.0`. -/
  keepsPoint : Bool
  /-- Whether digits with the point at a given place are written out. -/
  positional : Int → Bool

/-- Numbers in messages, keys and workbook cells: every digit written out. -/
def DecimalStyle.plain : DecimalStyle := ⟨.up, false, fun _ => true⟩

/-- Numbers in JSON documents: written out from five leading zeros to sixteen places
before the point. -/
def DecimalStyle.json : DecimalStyle := ⟨.even, true, fun point => -5 < point && point ≤ 16⟩

namespace Decimal

/-- A run of zeros. -/
def zeros (count : Nat) : List Char := List.replicate count '0'

/-- Digits with the point written at its place. -/
def positional (keepsPoint : Bool) (digits : List Char) (point : Int) : List Char :=
  if point ≤ 0 then '0' :: '.' :: zeros (-point).toNat ++ digits
  else if point < digits.length then
    digits.take point.toNat ++ '.' :: digits.drop point.toNat
  else
    digits ++ zeros (point.toNat - digits.length) ++ if keepsPoint then ['.', '0'] else []

/-- One digit before the point and a power of ten with its sign. -/
def scientific (digits : List Char) (point : Int) : List Char :=
  let power := point - 1
  let fraction := match digits.drop 1 with
    | [] => []
    | rest => '.' :: rest
  digits.take 1 ++ fraction ++ 'e' :: (if power < 0 then '-' else '+')
    :: Nat.toDigits 10 power.natAbs

end Decimal

/-- The text of a double in a given style. -/
def Double.format (style : DecimalStyle) : Double → String
  | .nan => "NaN"
  | .infinite negative => if negative then "-inf" else "inf"
  | .finite negative significand exponent =>
    let body :=
      if significand = 0 then if style.keepsPoint then ['0', '.', '0'] else ['0']
      else
        let decimal := shortest style.tie significand exponent
        let digits := Nat.toDigits 10 decimal.digits
        if style.positional decimal.point then
          Decimal.positional style.keepsPoint digits decimal.point
        else Decimal.scientific digits decimal.point
    String.ofList (if negative then '-' :: body else body)

end TypedSheets
