/-!
# The parts of a double

A finite double is a sign and a magnitude `significand * 2 ^ exponent`. Exact
questions about doubles, such as their decimal digits and their remainders, are
settled on these parts in integer arithmetic.

## Main definitions

* `Stepwise.Double.Parts` — sign, significand and exponent.
* `Stepwise.Double.parts` — the parts of a finite double.
* `Stepwise.Double.Parts.toDouble` — the double with given parts.
* `Stepwise.Double.wholePart` — the magnitude with its fraction dropped.
* `Stepwise.Double.remainder` — the exact remainder, with the sign of the dividend.
-/

namespace Stepwise.Double

/-- Not a number. -/
def nan : Float := 0.0 / 0.0

/-- Positive infinity. -/
def infinity : Float := 1.0 / 0.0

/-- The sign and the magnitude `significand * 2 ^ exponent` of a finite double. -/
structure Parts where
  /-- The double carries a minus sign. -/
  negative : Bool
  /-- The integer that the power of two multiplies, below `2 ^ 53`. -/
  significand : Nat
  /-- The exponent of the power of two. -/
  exponent : Int
  deriving DecidableEq, Repr

/-- The parts of a finite double, read off its 64 bits. -/
def parts (x : Float) : Parts :=
  let bits := x.toBits.toNat
  let field := bits / Nat.pow 2 52 % Nat.pow 2 11
  let fraction := bits % Nat.pow 2 52
  { negative := Nat.pow 2 63 ≤ bits
    significand := if field = 0 then fraction else Nat.pow 2 52 + fraction
    exponent := (if field = 0 then 1 else field : Nat) - 1075 }

/-- The double with the given parts, exact where it is representable. -/
def Parts.toDouble (p : Parts) : Float :=
  let magnitude := (Float.ofNat p.significand).scaleB p.exponent
  if p.negative then -magnitude else magnitude

/-- The magnitude of a finite double with its fraction dropped. -/
def wholePart (x : Float) : Nat :=
  let p := parts x
  if 0 ≤ p.exponent then p.significand * Nat.pow 2 p.exponent.toNat
  else p.significand / Nat.pow 2 (-p.exponent).toNat

/-- A finite double without a fraction. -/
def isWhole (x : Float) : Bool :=
  let p := parts x
  0 ≤ p.exponent || p.significand % Nat.pow 2 (-p.exponent).toNat == 0

/-- The remainder of the magnitudes of two finite doubles, the second not zero,
under the sign of the first. -/
def Parts.remainder (a b : Parts) : Parts :=
  if b.exponent ≤ a.exponent then
    { negative := a.negative
      significand := a.significand * Nat.pow 2 (a.exponent - b.exponent).toNat % b.significand
      exponent := b.exponent }
  else
    { negative := a.negative
      significand := a.significand % (b.significand * Nat.pow 2 (b.exponent - a.exponent).toNat)
      exponent := a.exponent }

/-- The exact remainder of a division that truncates; it has the sign of the
dividend. There is none for an infinite dividend or a zero divisor. -/
def remainder (a b : Float) : Float :=
  if a.isNaN || b.isNaN || a.isInf || b == 0.0 then nan
  else if b.isInf then a
  else ((parts a).remainder (parts b)).toDouble

end Stepwise.Double
