import Stepwise.Double.Parts
import Stepwise.Text.Basic

/-!
# Reading doubles

A decimal is a run of digits with an optional point and an optional exponent. It
reads as the double nearest to it; a decimal beyond the largest double reads as
infinity and one too close to zero as zero.

## Main definitions

* `Stepwise.Double.natOfDigits` — the number that a run of digits writes.
* `Stepwise.Double.ofText?` — a signed decimal with a point and an exponent.
-/

namespace Stepwise.Double

/-- The number that a run of decimal digits writes. -/
def natOfDigits (digits : Text) : Nat :=
  digits.foldl (fun n c => 10 * n + (c.toNat - '0'.toNat)) 0

/-- A sign at the start, and what follows it. -/
def splitSign : Text → Bool × Text
  | '-' :: rest => (true, rest)
  | '+' :: rest => (false, rest)
  | text => (false, text)

/-- A run of digits at the start, and what follows it. -/
def splitDigits (text : Text) : Text × Text :=
  (text.takeWhile Char.isDigit, text.dropWhile Char.isDigit)

/-- The exponent at the end of a decimal; a missing one is zero. -/
def exponentOf? : Text → Option Int
  | [] => some 0
  | c :: rest =>
    if c == 'e' || c == 'E' then
      let (negative, digits) := splitSign rest
      if digits.isEmpty || !digits.all Char.isDigit then none
      else
        let n : Int := natOfDigits digits
        some (if negative then -n else n)
    else none

/-- The double that a text writes as an optionally signed decimal: digits with at
most one point, at least one digit in all, and an optional exponent. -/
def ofText? (text : Text) : Option Float :=
  let (negative, unsigned) := splitSign text
  let (whole, rest) := splitDigits unsigned
  let (fraction, tail) := match rest with
    | '.' :: rest => splitDigits rest
    | rest => ([], rest)
  if whole.isEmpty && fraction.isEmpty then none
  else
    (exponentOf? tail).map fun exponent =>
      let power : Int := exponent - fraction.length
      let magnitude :=
        Float.ofScientific (natOfDigits (whole ++ fraction)) (power < 0) power.natAbs
      if negative then -magnitude else magnitude

end Stepwise.Double
