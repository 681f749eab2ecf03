import Stepwise.Proofs.Sorting.Elementary
import Stepwise.Proofs.Sorting.Recursive
import Stepwise.Sorting.Trace

/-!
# Every trace ends with a sorted array

## Main results

* `Stepwise.Sorting.perform_completes` — every algorithm completes its sort.
* `Stepwise.Sorting.trace_sorts` — what the last step of a trace shows.
-/

namespace Stepwise.Sorting

/-- The name of an algorithm at the start of a sentence. -/
def Algorithm.title : Algorithm → Text
  | .bubble => "Bubble".toList
  | .selection => "Selection".toList
  | .insertion => "Insertion".toList
  | .quick => "Quick".toList
  | .merge => "Merge".toList

/-- Every algorithm completes its sort. -/
theorem perform_completes (algorithm : Algorithm) (input : List Int) :
    Completes (perform algorithm input) (algorithm.title ++ " sort complete!".toList) input := by
  cases algorithm with
  | bubble => exact bubbleSort_completes input
  | selection => exact selectionSort_completes input
  | insertion => exact insertionSort_completes input
  | quick => exact quickSort_completes input
  | merge => exact mergeSort_completes input

theorem map_toMoment_countFrom (comparisons swaps : Nat) (moments : List Moment) :
    (countFrom comparisons swaps moments).map Step.toMoment = moments := by
  induction moments generalizing comparisons swaps with
  | nil => rfl
  | cons moment moments ih => rw [countFrom, List.map_cons, ih]

theorem exists_getLast?_count (moments : List Moment) (last : Moment) :
    ∃ step, (count (moments ++ [last])).getLast? = some step ∧ step.toMoment = last := by
  have hmap := congrArg List.getLast? (map_toMoment_countFrom 0 0 (moments ++ [last]))
  rw [List.getLast?_map, List.getLast?_concat] at hmap
  exact Option.map_eq_some_iff.1 hmap

/-- Every algorithm sorts every array. It does so without a read or a write outside the array
(`put?`, `exchange?`, `segment?`) and without counting a position back below zero (`minus?`),
each of which would leave it without work. The trace is not empty. Its last step says that
the sort is complete, shows the numbers of the input in order, and names each position of the
array exactly once as final. -/
theorem trace_sorts (algorithm : Algorithm) (input : List Int) :
    ∃ work last, perform algorithm input = some work ∧
      trace algorithm input = count work.moments ∧
      (trace algorithm input).getLast? = some last ∧
      last.description = algorithm.title ++ " sort complete!".toList ∧
      last.array.Pairwise (· ≤ ·) ∧ last.array.Perm input ∧
      last.sorted.Perm (List.range input.length) := by
  obtain ⟨moments, last, hwork, hlast⟩ := perform_completes algorithm input
  have htrace : trace algorithm input = count (moments ++ [last]) := by
    rw [trace, hwork]
  obtain ⟨step, hstep, rfl⟩ := exists_getLast?_count moments last
  refine ⟨_, step, hwork, htrace, ?_, hlast⟩
  rw [htrace, hstep]

end Stepwise.Sorting
