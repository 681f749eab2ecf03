import Stepwise.Text.Basic

/-!
# Moments of a sort

A sort is recorded as the list of its moments: what the array holds, which positions
are compared, which are exchanged and which are final. The steps of a trace are the
moments together with running counts of comparisons and swaps.

## Main definitions

* `Stepwise.Sorting.Moment` — a recorded moment.
* `Stepwise.Sorting.Step`, `Stepwise.Sorting.count` — moments with running counts.
* `Stepwise.Sorting.Performance` — the moments of a piece of work, and the array after it.
* `Stepwise.Sorting.put?`, `exchange?`, `segment?` — writing, exchanging and reading
  positions. An array is only touched at positions that it has; work that touches any
  other position has no result.
* `Stepwise.Sorting.minus?` — counting a position back. There is no position below zero;
  work that counts back any further has no result.
-/

namespace Stepwise.Sorting

/-- A recorded moment of a sort. -/
structure Moment where
  /-- What the array holds. -/
  array : List Int
  /-- The positions that are compared. -/
  comparing : List Nat := []
  /-- The positions that are exchanged or shifted. -/
  swapping : List Nat := []
  /-- The positions that are known to be final. -/
  sorted : List Nat := []
  /-- What happens, in words. -/
  description : Text
  deriving DecidableEq, Repr

/-- A moment with the numbers of comparisons and of swaps up to it. -/
structure Step extends Moment where
  /-- How many moments so far compared positions. -/
  comparisons : Nat
  /-- How many moments so far exchanged positions. -/
  swaps : Nat
  deriving DecidableEq, Repr

/-- The steps of a list of moments, when the given numbers of comparisons and swaps
precede them. -/
def countFrom (comparisons swaps : Nat) : List Moment → List Step
  | [] => []
  | moment :: moments =>
    let comparisons := if moment.comparing.isEmpty then comparisons else comparisons + 1
    let swaps := if moment.swapping.isEmpty then swaps else swaps + 1
    { moment with comparisons, swaps } :: countFrom comparisons swaps moments

/-- The steps of a list of moments. -/
def count (moments : List Moment) : List Step :=
  countFrom 0 0 moments

/-- The moments of a piece of work, and the array after it. -/
structure Performance where
  moments : List Moment
  /-- The array after the work. -/
  array : List Int
  deriving DecidableEq, Repr

namespace Performance

/-- No work at all. -/
def idle (array : List Int) : Performance := ⟨[], array⟩

/-- The same work with the given moments before it. -/
def after (moments : List Moment) (work : Performance) : Performance :=
  ⟨moments ++ work.moments, work.array⟩

/-- Work that goes on with the array that the work before it leaves. -/
def andThen (work : Performance) (next : List Int → Option Performance) : Option Performance :=
  (next work.array).map (after work.moments)

/-- The work with one more moment at its end, in which positions are final. -/
def conclude (work : Performance) (sorted : List Nat) (description : Text) : Performance :=
  ⟨work.moments ++ [{ array := work.array, sorted, description }], work.array⟩

end Performance

/-! ### Positions -/

/-- The array with another number at a position, if it has that position. -/
def put? (array : List Int) (i : Nat) (value : Int) : Option (List Int) :=
  if i < array.length then some (array.set i value) else none

/-- The array with the numbers at two positions exchanged, if it has both. -/
def exchange? (array : List Int) (i j : Nat) : Option (List Int) := do
  let x ← array[i]?
  let y ← array[j]?
  return (array.set i y).set j x

/-- The numbers from position `first` to position `last`, if the array has them all and the
last position comes no further before the first one than next to it. -/
def segment? (array : List Int) (first last : Nat) : Option (List Int) :=
  if first ≤ last + 1 ∧ last < array.length then
    some ((array.drop first).take (last + 1 - first))
  else none

/-- The position that comes `b` places before `a`, if it is not below zero. -/
def minus? (a b : Nat) : Option Nat :=
  if b ≤ a then some (a - b) else none

theorem minus?_eq_some_iff {a b c : Nat} : minus? a b = some c ↔ a = c + b := by
  unfold minus?
  split
  · rw [Option.some.injEq]
    omega
  · simp only [reduceCtorEq, false_iff]
    omega

@[simp] theorem minus?_add (c b : Nat) : minus? (c + b) b = some c :=
  minus?_eq_some_iff.2 rfl

/-- Numbers separated by commas. -/
def listing (values : List Int) : Text :=
  Text.join ", ".toList (values.map Text.ofInt)

end Stepwise.Sorting
