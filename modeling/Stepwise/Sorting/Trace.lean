import Stepwise.Json.Basic
import Stepwise.Sorting.Algorithm
import Stepwise.Sorting.Elementary
import Stepwise.Sorting.Recursive

/-!
# Traces of sorts

## Main definitions

* `Stepwise.Sorting.perform` — the work of an algorithm on an input.
* `Stepwise.Sorting.trace` — all steps of an algorithm on an input.
* `Stepwise.Sorting.Tracer` — records the steps of one sort after another on the same input.
* `Stepwise.Sorting.Step.toJson`, `Stepwise.Sorting.Step.line` — a step as a document and
  as a line of text.
-/

namespace Stepwise.Sorting

/-- The work of an algorithm on an input. There is none if the algorithm reads or writes
outside the array, or counts a position back below zero. -/
def perform : Algorithm → List Int → Option Performance
  | .bubble => bubbleSort
  | .selection => selectionSort
  | .insertion => insertionSort
  | .quick => quickSort
  | .merge => mergeSort

/-- All steps of an algorithm on an input. -/
def trace (algorithm : Algorithm) (input : List Int) : List Step :=
  match perform algorithm input with
  | some work => count work.moments
  | none => []

/-! ### Tracers -/

/-- Records the steps of sorts of the same input. -/
structure Tracer where
  /-- The numbers to sort. -/
  input : List Int
  /-- The steps that were recorded of a sort. -/
  steps : Array Step := #[]
  /-- How many of them compared positions. -/
  comparisons : Nat := 0
  /-- How many of them exchanged positions. -/
  swaps : Nat := 0
  deriving DecidableEq, Repr

namespace Tracer

/-- A new tracer for an input. -/
def ofInput (input : List Int) : Tracer := { input }

/-- The tracer with nothing recorded. -/
def clear (tracer : Tracer) : Tracer :=
  { tracer with steps := #[], comparisons := 0, swaps := 0 }

/-- Counts a moment and records it. -/
def addStep (tracer : Tracer) (moment : Moment) : Tracer :=
  let comparisons :=
    if moment.comparing.isEmpty then tracer.comparisons else tracer.comparisons + 1
  let swaps := if moment.swapping.isEmpty then tracer.swaps else tracer.swaps + 1
  { tracer with
    steps := tracer.steps.push { moment with comparisons, swaps }
    comparisons, swaps }

/-- Records a sort of the input. Gives its steps, and the tracer without them; the tracer
keeps the counts until the next sort. -/
def trace (tracer : Tracer) (algorithm : Algorithm) : List Step × Tracer :=
  let recorded := match perform algorithm tracer.input with
    | some work => work.moments.foldl addStep tracer.clear
    | none => tracer.clear
  (recorded.steps.toList, { recorded with steps := #[] })

/-- Records one sort after another. Gives the steps of each, and the tracer after them. -/
def traceAll (tracer : Tracer) : List Algorithm → List (List Step) × Tracer
  | [] => ([], tracer)
  | algorithm :: algorithms =>
    let (steps, next) := tracer.trace algorithm
    let (others, last) := next.traceAll algorithms
    (steps :: others, last)

end Tracer

namespace Step

/-- Positions as a document. -/
def positionsJson (positions : List Nat) : Json :=
  .arr (positions.map fun i : Nat => .int i)

/-- A step as a document. -/
def toJson (step : Step) : Json :=
  .obj [
    ("array".toList, .arr (step.array.map .int)),
    ("comparing".toList, positionsJson step.comparing),
    ("swapping".toList, positionsJson step.swapping),
    ("sorted".toList, positionsJson step.sorted),
    ("description".toList, .str step.description),
    ("comparisons".toList, .int step.comparisons),
    ("swaps".toList, .int step.swaps)]

/-- A number of the array, marked if its position is exchanged or compared. -/
def cell (step : Step) (value : Int) (i : Nat) : Text :=
  if step.swapping.contains i then "<".toList ++ Text.ofInt value ++ ">".toList
  else if step.comparing.contains i then "[".toList ++ Text.ofInt value ++ "]".toList
  else Text.ofInt value

/-- A step as a line of text: its number, what happens, the counts and the array. -/
def line (index : Nat) (step : Step) : Text :=
  Text.padLeft 4 (Text.ofNat index) ++ "  ".toList ++ Text.padRight 48 step.description ++
    " cmp=".toList ++ Text.padRight 4 (Text.ofNat step.comparisons) ++
    " swp=".toList ++ Text.padRight 4 (Text.ofNat step.swaps) ++ " ".toList ++
    Text.join [' '] (step.array.zipIdx.map fun (value, i) => step.cell value i)

end Step

end Stepwise.Sorting
