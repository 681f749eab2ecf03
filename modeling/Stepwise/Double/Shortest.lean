import Stepwise.Double.Parts

/-!
# Shortest decimal digits

The decimal written for a double has the fewest digits that read back as the same
double, and among decimals of that length it is the one nearest to the double. The
decimals that read back form an interval around the double that reaches half way
to each neighbour; its ends belong to it when the significand is even.

## Main definitions

* `Stepwise.Double.Decimal` — digits and the position of the decimal point.
* `Stepwise.Double.Tie` — which of two equally near decimals is taken.
* `Stepwise.Double.shortest` — the shortest decimal of a double.
-/

namespace Stepwise.Double

/-- The decimal `0.d₁d₂… * 10 ^ point` with the digits of `digits`. -/
structure Decimal where
  /-- The digits as one number without trailing zeros. -/
  digits : Nat
  /-- How many places the decimal point stands right of the start of the digits. -/
  point : Int
  deriving DecidableEq, Repr

/-- Which of two equally near decimals is taken. -/
inductive Tie where
  | up
  | even
  deriving DecidableEq, Repr

/-- The interval of decimals that read back as a double, as numerators over a
common denominator. -/
structure Interval where
  low : Nat
  /-- The double itself. -/
  value : Nat
  high : Nat
  denominator : Nat
  /-- The ends belong to the interval. -/
  closed : Bool

/-- The interval of decimals that read back as the double with the given parts. A
power of two has its lower neighbour at half the usual distance. -/
def Parts.interval (p : Parts) : Interval :=
  -- Numerators count quarters of the last place, so that all ends are whole.
  let scale := Nat.pow 2 (p.exponent - 2).toNat
  let below := if p.significand = Nat.pow 2 52 ∧ -1074 < p.exponent then 1 else 2
  { low := (4 * p.significand - below) * scale
    value := 4 * p.significand * scale
    high := (4 * p.significand + 2) * scale
    denominator := Nat.pow 2 (2 - p.exponent).toNat
    closed := p.significand % 2 = 0 }

/-- The position of the decimal point of a positive fraction: the least power of
ten above it. -/
def pointOf (numerator denominator : Nat) : Int :=
  if denominator ≤ numerator then (Nat.toDigits 10 (numerator / denominator)).length
  else 1 - ((Nat.toDigits 10 ((denominator - 1) / numerator)).length : Int)

/-- The multiple of `10 ^ unit` nearest to the value among its two neighbours on
that grid, if one of them lies in the interval. -/
def Interval.nearest (i : Interval) (tie : Tie) (unit : Int) : Option Nat :=
  let up := Nat.pow 10 (-unit).toNat
  let step := i.denominator * Nat.pow 10 unit.toNat
  let floor := i.value * up / step
  let rest := i.value * up % step
  let inside (c : Nat) : Bool :=
    if i.closed then i.low * up ≤ c * step && c * step ≤ i.high * up
    else i.low * up < c * step && c * step < i.high * up
  -- Zero is no candidate: it would read back as zero.
  match inside floor && floor != 0, inside (floor + 1) with
  | false, false => none
  | true, false => some floor
  | false, true => some (floor + 1)
  | true, true =>
    if 2 * rest < step then some floor
    else if step < 2 * rest then some (floor + 1)
    else match tie with
      | .up => some (floor + 1)
      | .even => some (if floor % 2 = 0 then floor else floor + 1)

/-- A number without its trailing zeros, for at most `fuel` of them. -/
def dropZeros : Nat → Nat → Nat
  | 0, n => n
  | fuel + 1, n => if n % 10 = 0 then dropZeros fuel (n / 10) else n

/-- The shortest decimal of a finite double other than zero: the coarsest grid that
has a point in the interval decides, and seventeen digits always have one. -/
def shortest (tie : Tie) (x : Float) : Decimal :=
  let i := (parts x).interval
  let point := pointOf i.value i.denominator
  let hit := (List.range 17).findSome? fun k =>
    (i.nearest tie (point - (k + 1 : Nat))).map fun c => (c, point - (k + 1 : Nat))
  match hit with
  | some (c, unit) =>
    let digits := dropZeros 17 c
    ⟨digits, unit + (Nat.toDigits 10 c).length⟩
  | none => ⟨0, point⟩

end Stepwise.Double
