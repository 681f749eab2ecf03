import Stepwise.Double.Shortest
import Stepwise.Text.Basic

/-!
# Writing doubles

The formats in which this library writes doubles share the shortest digits and
differ in a few decisions, which are the fields of one record.

## Main definitions

* `Stepwise.Double.Format` — the decisions of a format.
* `Stepwise.Double.Format.finite` — a finite double other than zero in a format.
-/

namespace Stepwise.Double

/-- How a finite double is written. -/
structure Format where
  /-- The least position of the decimal point written without an exponent. -/
  leastPoint : Int
  /-- The greatest position of the decimal point written without an exponent. -/
  greatestPoint : Int
  /-- Without an exponent, a whole number still has a point and a zero. -/
  keepsPoint : Bool
  /-- Without an exponent, a whole number is written with all its exact digits. -/
  exactWhole : Bool
  /-- Which of two equally near decimals is written. -/
  tie : Tie

/-- A decimal without an exponent: zeros stand where its digits do not reach. -/
def positional (keepsPoint : Bool) (digits : Text) (point : Int) : Text :=
  let fraction (zeros : Nat) (tail : Text) : Text :=
    if tail.isEmpty then (if keepsPoint then ['.', '0'] else [])
    else '.' :: (List.replicate zeros '0' ++ tail)
  if point ≤ 0 then '0' :: fraction (-point).toNat digits
  else
    digits.take point.toNat ++ List.replicate (point.toNat - digits.length) '0' ++
      fraction 0 (digits.drop point.toNat)

/-- A decimal with one digit before the point and a signed exponent. -/
def scientific (digits : Text) (point : Int) : Text :=
  let exponent := point - 1
  let sign := if exponent < 0 then '-' else '+'
  let fraction := digits.drop 1
  digits.take 1 ++ (if fraction.isEmpty then [] else '.' :: fraction) ++
    ('e' :: sign :: Text.ofNat exponent.natAbs)

/-- The text of a finite double other than zero. -/
def Format.finite (format : Format) (x : Float) : Text :=
  let decimal := shortest format.tie x
  let digits := Text.ofNat decimal.digits
  let magnitude :=
    if format.leastPoint ≤ decimal.point && decimal.point ≤ format.greatestPoint then
      if format.exactWhole && isWhole x then Text.ofNat (wholePart x)
      else positional format.keepsPoint digits decimal.point
    else scientific digits decimal.point
  if x < 0.0 then '-' :: magnitude else magnitude

end Stepwise.Double
