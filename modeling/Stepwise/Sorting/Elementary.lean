import Stepwise.Sorting.Moment

/-!
# Elementary sorts

Bubble, selection and insertion sort, each recorded moment by moment. How many rounds a
loop has is the length of a range, which is empty if it ends before it starts; positions
are counted back with `minus?`, which has no result then.

## Main definitions

* `Stepwise.Sorting.bubbleSort` — passes that carry the greatest number to the end.
* `Stepwise.Sorting.selectionSort` — the least remaining number is put in front.
* `Stepwise.Sorting.insertionSort` — each number is inserted among those before it.
-/

namespace Stepwise.Sorting

/-! ### Bubble sort -/

/-- The comparison of two neighbours, and their exchange if they are out of order. -/
def bubbleStep (sorted : List Nat) (array : List Int) (j : Nat) : Option Performance := do
  let x ← array[j]?
  let y ← array[j + 1]?
  let words (verb : String) : Text :=
    verb.toList ++ Text.ofInt x ++ " and ".toList ++ Text.ofInt y
  let comparison : Moment :=
    { array, comparing := [j, j + 1], sorted, description := words "Comparing " }
  if y < x then
    let swapped ← exchange? array j (j + 1)
    return ⟨[comparison,
      { array, swapping := [j, j + 1], sorted, description := words "Swapping " },
      { array := swapped, sorted, description := "Swapped!".toList }], swapped⟩
  else return ⟨[comparison], array⟩

/-- A pass over `pairs` pairs of neighbours from position `j` on. -/
def bubblePass (sorted : List Nat) (j : Nat) : Nat → List Int → Option Performance
  | 0, array => some (.idle array)
  | pairs + 1, array => do
    let step ← bubbleStep sorted array j
    step.andThen (bubblePass sorted (j + 1) pairs)

/-- The passes of a bubble sort of `n` numbers from pass `i` on, of which `count` are
left. -/
def bubblePasses (n i : Nat) : Nat → List Nat → List Int → Option Performance
  | 0, sorted, array =>
    some ((Performance.idle array).conclude (if 0 < n then 0 :: sorted else sorted)
      "Bubble sort complete!".toList)
  | count + 1, sorted, array => do
    let pairs ← minus? (← minus? n i) 1
    let pass ← bubblePass sorted 0 pairs array
    let last ← minus? (← minus? n 1) i
    pass.andThen (bubblePasses n (i + 1) count (last :: sorted))

/-- Bubble sort. -/
def bubbleSort (array : List Int) : Option Performance :=
  bubblePasses array.length 0 (array.length - 1) [] array

/-- The passes up to position `last`, where a bubble sort has one for each position but the
first. -/
theorem bubblePasses_succ {n i last : Nat} (hn : n = i + last + 2) (sorted : List Nat)
    (array : List Int) :
    bubblePasses n i (last + 1) sorted array = (do
      let pass ← bubblePass sorted 0 (last + 1) array
      pass.andThen (bubblePasses n (i + 1) last ((last + 1) :: sorted))) := by
  have hpairs : minus? n i = some (last + 2) := minus?_eq_some_iff.2 (by omega)
  have hone : minus? n 1 = some (last + 1 + i) := minus?_eq_some_iff.2 (by omega)
  have hpair : minus? (last + 2) 1 = some (last + 1) := minus?_add (last + 1) 1
  simp only [bubblePasses, hpairs, hpair, hone, minus?_add, Option.bind_eq_bind, Option.bind_some]

/-! ### Selection sort -/

/-- Looks for the least number among `count` positions from `j` on, where `least` is
the position of the least one so far; gives its position and the moments. -/
def selectLeast (array : List Int) (sorted : List Nat) (least j : Nat) :
    Nat → Option (Nat × List Moment)
  | 0 => some (least, [])
  | count + 1 => do
    let x ← array[least]?
    let y ← array[j]?
    let comparison : Moment :=
      { array, comparing := [least, j], sorted
        description := "Comparing ".toList ++ Text.ofInt x ++ " with ".toList ++ Text.ofInt y }
    if y < x then
      let found : Moment :=
        { array, comparing := [j], sorted
          description := "New minimum found: ".toList ++ Text.ofInt y }
      let (result, moments) ← selectLeast array sorted j (j + 1) count
      return (result, comparison :: found :: moments)
    else
      let (result, moments) ← selectLeast array sorted least (j + 1) count
      return (result, comparison :: moments)

/-- Puts the least number from position `i` on at position `i`; `count` positions
follow it. -/
def selectionStep (sorted : List Nat) (i count : Nat) (array : List Int) :
    Option Performance := do
  let (least, moments) ← selectLeast array sorted i (i + 1) count
  let final := sorted ++ [i]
  let words := "Position ".toList ++ Text.ofNat i ++ " is now sorted".toList
  if least = i then return (Performance.mk moments array).conclude final words
  else
    let x ← array[i]?
    let y ← array[least]?
    let swapped ← exchange? array i least
    let swap : Moment :=
      { array, swapping := [i, least], sorted
        description := "Swapping ".toList ++ Text.ofInt x ++ " and ".toList ++ Text.ofInt y }
    return (Performance.mk (moments ++ [swap]) swapped).conclude final words

/-- The steps of a selection sort of `n` numbers from position `i` on, of which `count` are
left. -/
def selectionSteps (n i : Nat) : Nat → List Nat → List Int → Option Performance
  | 0, sorted, array => do
    let final ←
      if 0 < n then (minus? n 1).map fun last => sorted ++ [last]
      else some sorted
    return (Performance.idle array).conclude final "Selection sort complete!".toList
  | count + 1, sorted, array => do
    let step ← selectionStep sorted i (n - (i + 1)) array
    step.andThen (selectionSteps n (i + 1) count (sorted ++ [i]))

/-- Selection sort. -/
def selectionSort (array : List Int) : Option Performance :=
  selectionSteps array.length 0 (array.length - 1) [] array

/-- After the last step only one position is left, which is the last one. -/
theorem selectionSteps_zero {n i : Nat} (hn : n = i + 1) (sorted : List Nat) (array : List Int) :
    selectionSteps n i 0 sorted array = some ((Performance.idle array).conclude (sorted ++ [i])
      "Selection sort complete!".toList) := by
  subst hn
  simp [selectionSteps]

theorem selectionSteps_succ {n i count : Nat} (hn : n = i + count + 2) (sorted : List Nat)
    (array : List Int) :
    selectionSteps n i (count + 1) sorted array = (do
      let step ← selectionStep sorted i (count + 1) array
      step.andThen (selectionSteps n (i + 1) count (sorted ++ [i]))) := by
  have hcount : n - (i + 1) = count + 1 := by omega
  rw [selectionSteps, hcount]

/-! ### Insertion sort -/

/-- Shifts the numbers greater than `key` before position `j` one place to the right;
gives the position that becomes free. -/
def shiftGreater (key : Int) (sorted : List Nat) (j : Nat) (array : List Int) :
    Option (Nat × Performance) :=
  if 0 < j then
    match _hi : minus? j 1 with
    | none => none
    | some i => do
      let x ← array[i]?
      if key < x then
        let shifted ← put? array j x
        let comparison : Moment :=
          { array, comparing := [i, j], sorted
            description :=
              Text.ofInt x ++ " > ".toList ++ Text.ofInt key ++ ", shifting right".toList }
        let shift : Moment :=
          { array := shifted, swapping := [i, j], sorted
            description := "Shifted ".toList ++ Text.ofInt x }
        let (hole, work) ← shiftGreater key sorted i shifted
        return (hole, work.after [comparison, shift])
      else return (j, .idle array)
  else some (j, .idle array)
termination_by j
decreasing_by
  have := minus?_eq_some_iff.1 _hi
  omega

theorem shiftGreater_zero (key : Int) (sorted : List Nat) (array : List Int) :
    shiftGreater key sorted 0 array = some (0, .idle array) := by
  rw [shiftGreater, if_neg (Nat.lt_irrefl 0)]

/-- There is a position before every one but the first. -/
theorem shiftGreater_succ (key : Int) (sorted : List Nat) (j : Nat) (array : List Int) :
    shiftGreater key sorted (j + 1) array = (do
      let x ← array[j]?
      if key < x then
        let shifted ← put? array (j + 1) x
        let (hole, work) ← shiftGreater key sorted j shifted
        return (hole, work.after
          [{ array, comparing := [j, j + 1], sorted
             description :=
               Text.ofInt x ++ " > ".toList ++ Text.ofInt key ++ ", shifting right".toList },
            { array := shifted, swapping := [j, j + 1], sorted
              description := "Shifted ".toList ++ Text.ofInt x }])
      else return (j + 1, .idle array)) := by
  rw [shiftGreater, if_pos (Nat.succ_pos j)]
  split
  · rename_i hnone
    simp at hnone
  · rename_i i hi
    rw [minus?_add, Option.some.injEq] at hi
    subst hi
    rfl

/-- Inserts the number at position `i` among those before it. -/
def insertionStep (sorted : List Nat) (i : Nat) (array : List Int) : Option Performance := do
  let key ← array[i]?
  let start : Moment :=
    { array, comparing := [i], sorted
      description := "Inserting ".toList ++ Text.ofInt key ++ " into sorted portion".toList }
  let (hole, work) ← shiftGreater key sorted i array
  let inserted ← put? work.array hole key
  return (Performance.mk (start :: work.moments) inserted).conclude (sorted ++ [i])
    ("Inserted ".toList ++ Text.ofInt key ++ " at position ".toList ++ Text.ofNat hole)

/-- The steps of an insertion sort for `count` positions from `i` on. -/
def insertionSteps (i : Nat) : Nat → List Nat → List Int → Option Performance
  | 0, sorted, array =>
    some ((Performance.idle array).conclude sorted "Insertion sort complete!".toList)
  | count + 1, sorted, array => do
    let step ← insertionStep sorted i array
    step.andThen (insertionSteps (i + 1) count (sorted ++ [i]))

/-- Insertion sort. -/
def insertionSort (array : List Int) : Option Performance :=
  let sorted := if array.isEmpty then [] else [0]
  ((Performance.idle array).conclude sorted "Starting with first element as sorted".toList).andThen
    (insertionSteps 1 (array.length - 1) sorted)

end Stepwise.Sorting
