import Stepwise.Sorting.Moment

/-!
# Recursive sorts

Quick sort and merge sort on segments of an array, each recorded moment by moment. A
segment is given by its first and its last position.

## Main definitions

* `Stepwise.Sorting.partition` — numbers less than the last one are moved in front.
* `Stepwise.Sorting.quickSort` — partition, then both sides of the pivot.
* `Stepwise.Sorting.mergeSegments` — two neighbouring sorted segments are merged.
* `Stepwise.Sorting.mergeSort` — both halves, then their merge.
-/

namespace Stepwise.Sorting

/-! ### Quick sort -/

/-- Compares `count` positions from `j` on with the pivot, which stands at position
`high`. The numbers less than the pivot are collected, the next one at position `store`;
gives the position behind the last of them. -/
def partitionLoop (pivot : Int) (high store j : Nat) :
    Nat → List Int → Option (Nat × Performance)
  | 0, array => some (store, .idle array)
  | count + 1, array => do
    let x ← array[j]?
    let comparison : Moment :=
      { array, comparing := [j, high]
        description :=
          "Comparing ".toList ++ Text.ofInt x ++ " with pivot ".toList ++ Text.ofInt pivot }
    if x < pivot then
      if store = j then
        let (final, work) ← partitionLoop pivot high (store + 1) (j + 1) count array
        return (final, work.after [comparison])
      else
        let y ← array[store]?
        let swapped ← exchange? array store j
        let (final, work) ← partitionLoop pivot high (store + 1) (j + 1) count swapped
        return (final, work.after
          [comparison,
            { array, swapping := [store, j]
              description :=
                "Swapping ".toList ++ Text.ofInt y ++ " and ".toList ++ Text.ofInt x },
            { array := swapped, description := "Swapped!".toList }])
    else
      let (final, work) ← partitionLoop pivot high store (j + 1) count array
      return (final, work.after [comparison])

/-- Partitions the segment from `low` to `high` around its last number; gives the position
at which this comes to stand. -/
def partition (low high : Nat) (array : List Int) : Option (Nat × Performance) := do
  let pivot ← array[high]?
  let selection : Moment :=
    { array, comparing := [high]
      description := "Pivot selected: ".toList ++ Text.ofInt pivot }
  let (store, work) ← partitionLoop pivot high low low (high - low) array
  let placing : Moment :=
    { array := work.array, swapping := [store, high]
      description :=
        "Placing pivot ".toList ++ Text.ofInt pivot ++ " in correct position".toList }
  let placed ← exchange? work.array store high
  return (store,
    (Performance.mk (selection :: work.moments ++ [placing]) placed).conclude [store]
      ("Pivot ".toList ++ Text.ofInt pivot ++ " is now in place".toList))

/-- Quick sort of the segment from `low` to `high`. -/
def quickSegment (low high : Nat) (array : List Int) : Option Performance :=
  if low < high then do
    let (middle, work) ← partition low high array
    -- A pivot outside the segment would leave no shorter segments on its sides.
    if low ≤ middle ∧ middle ≤ high then
      let front ← work.andThen fun array =>
        if low < middle then
          match _hlast : minus? middle 1 with
          | none => none
          | some last => quickSegment low last array
        else some (.idle array)
      front.andThen (quickSegment (middle + 1) high)
    else none
  else some (.idle array)
termination_by high - low
decreasing_by
  · have := minus?_eq_some_iff.1 _hlast
    omega
  · omega

/-- There is a position before a pivot that is not the first of the segment. -/
theorem quickSegment_eq (low high : Nat) (array : List Int) :
    quickSegment low high array =
      if low < high then (do
        let (middle, work) ← partition low high array
        if low ≤ middle ∧ middle ≤ high then
          let front ← work.andThen fun array =>
            if low < middle then quickSegment low (middle - 1) array else some (.idle array)
          front.andThen (quickSegment (middle + 1) high)
        else none)
      else some (.idle array) := by
  have hfront : ∀ middle, low < middle → ∀ array,
      (match _hlast : minus? middle 1 with
        | none => none
        | some last => quickSegment low last array) = quickSegment low (middle - 1) array := by
    intro middle hmiddle array
    have hlast : minus? middle 1 = some (middle - 1) := minus?_eq_some_iff.2 (by omega)
    split
    · simp_all
    · rename_i last hsome
      rw [hlast, Option.some.injEq] at hsome
      rw [hsome]
  rw [quickSegment]
  congr 2
  funext ⟨middle, work⟩
  by_cases hmiddle : low < middle
  · simp only [if_pos hmiddle, hfront middle hmiddle]
  · simp only [if_neg hmiddle]

/-- Quick sort. -/
def quickSort (array : List Int) : Option Performance := do
  let work ←
    (if 0 < array.length then
      (minus? array.length 1).bind fun last => quickSegment 0 last array
    else some (.idle array))
  return work.conclude (List.range array.length) "Quick sort complete!".toList

/-! ### Merge sort -/

/-- Writes numbers one after the other from position `k` on. -/
def writeFrom (k : Nat) : List Int → List Int → Option (List Int)
  | [], array => some array
  | x :: xs, array => do
    let placed ← put? array k x
    writeFrom (k + 1) xs placed

/-- Merges two lists of numbers into the array from position `k` on. The lists were
read from positions `i` and `j` on. -/
def mergeLoop (k i j : Nat) : List Int → List Int → List Int → Option Performance
  | x :: xs, y :: ys, array => do
    let comparison : Moment :=
      { array, comparing := [i, j]
        description := "Comparing ".toList ++ Text.ofInt x ++ " and ".toList ++ Text.ofInt y }
    let placed ← put? array k (if x ≤ y then x else y)
    let value ← placed[← minus? (k + 1) 1]?
    let placing : Moment :=
      { array := placed, description := "Placed ".toList ++ Text.ofInt value }
    let work ←
      if x ≤ y then mergeLoop (k + 1) (i + 1) j xs (y :: ys) placed
      else mergeLoop (k + 1) i (j + 1) (x :: xs) ys placed
    return work.after [comparison, placing]
  | xs, ys, array => (writeFrom k (xs ++ ys) array).map .idle
termination_by xs ys => xs.length + ys.length

/-- The number just placed is the lesser one. -/
theorem mergeLoop_cons (k i j : Nat) (x : Int) (xs : List Int) (y : Int) (ys array : List Int) :
    mergeLoop k i j (x :: xs) (y :: ys) array = (do
      let least := if x ≤ y then x else y
      let placed ← put? array k least
      let work ←
        if x ≤ y then mergeLoop (k + 1) (i + 1) j xs (y :: ys) placed
        else mergeLoop (k + 1) i (j + 1) (x :: xs) ys placed
      return work.after
        [{ array, comparing := [i, j]
           description := "Comparing ".toList ++ Text.ofInt x ++ " and ".toList ++ Text.ofInt y },
          { array := placed, description := "Placed ".toList ++ Text.ofInt least }]) := by
  rw [mergeLoop]
  unfold put?
  split
  · rename_i hk
    simp [List.getElem?_set_self hk]
  · rfl

/-- Merges the sorted segments from `low` to `middle` and from behind `middle` to `high`. -/
def mergeSegments (low middle high : Nat) (array : List Int) : Option Performance := do
  let left ← segment? array low middle
  let right ← segment? array (middle + 1) high
  let start : Moment :=
    { array
      description :=
        "Merging [".toList ++ listing left ++ "] and [".toList ++ listing right ++ "]".toList }
  let work ← mergeLoop low low (middle + 1) left right array
  let merged ← segment? work.array low high
  return (work.after [start]).conclude []
    ("Merged section: [".toList ++ listing merged ++ "]".toList)

/-- Merge sort of the segment from `low` to `high`. -/
def mergeSegment (low high : Nat) (array : List Int) : Option Performance :=
  if _h : low < high then do
    let middle := (low + high) / 2
    let range (first last : Nat) : Text :=
      "[".toList ++ Text.ofNat first ++ "...".toList ++ Text.ofNat last ++ "]".toList
    let division : Moment :=
      { array
        description :=
          "Dividing: ".toList ++ range low middle ++ " and ".toList ++ range (middle + 1) high }
    let front ← mergeSegment low middle array
    let both ← (front.after [division]).andThen (mergeSegment (middle + 1) high)
    both.andThen (mergeSegments low middle high)
  else some (.idle array)
termination_by high - low

/-- Merge sort. -/
def mergeSort (array : List Int) : Option Performance := do
  let work ←
    (if 0 < array.length then
      (minus? array.length 1).bind fun last => mergeSegment 0 last array
    else some (.idle array))
  return work.conclude (List.range array.length) "Merge sort complete!".toList

end Stepwise.Sorting
