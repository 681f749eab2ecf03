import Stepwise.Proofs.Sorting.Replay
import Stepwise.Sorting.Elementary
import Stepwise.Sorting.Recursive

/-!
# Positions in the array

Insertion sort and merge sort overwrite numbers, so their moments cannot be replayed. Still the
array keeps its length, and all positions of a moment lie in it. Merge sort names no
position as final before its end.

## Main definitions

* `Stepwise.Sorting.Shows` — all moments of a piece of work have a property, and the work
  leaves an array of a given length.

## Main results

* `Stepwise.Sorting.insertionSort_shows`
* `Stepwise.Sorting.mergeSegment_shows`, `Stepwise.Sorting.mergeSort_shows`
-/

namespace Stepwise.Sorting

/-! ### Properties of all moments -/

/-- All moments of the work have the property, and the array after it has the length. -/
structure Shows (P : Moment → Prop) (length : Nat) (work : Performance) : Prop where
  length_eq : work.array.length = length
  holds : ∀ moment ∈ work.moments, P moment

section Shows

variable {P : Moment → Prop} {length : Nat} {work result : Performance}

theorem shows_idle {array : List Int} (h : array.length = length) :
    Shows P length (.idle array) :=
  ⟨h, by simp [Performance.idle]⟩

theorem Shows.cons {moment : Moment} (h : Shows P length work) (hmoment : P moment) :
    Shows P length (work.after [moment]) :=
  ⟨h.length_eq, List.forall_mem_cons.2 ⟨hmoment, h.holds⟩⟩

theorem Shows.andThen {next : List Int → Option Performance} (h : Shows P length work)
    (hresult : work.andThen next = some result)
    (hnext : ∀ rest, next work.array = some rest → Shows P length rest) :
    Shows P length result := by
  obtain ⟨rest, hrest, rfl⟩ := Option.map_eq_some_iff.1 hresult
  have hshows := hnext rest hrest
  exact ⟨hshows.length_eq, List.forall_mem_append.2 ⟨h.holds, hshows.holds⟩⟩

theorem Shows.conclude {sorted : List Nat} {description : Text} (h : Shows P length work)
    (hlast : P { array := work.array, sorted, description }) :
    Shows P length (work.conclude sorted description) :=
  ⟨h.length_eq, List.forall_mem_append.2 ⟨h.holds, by simpa using hlast⟩⟩

end Shows

theorem put?_eq_some_iff {array result : List Int} {i : Nat} {value : Int} :
    put? array i value = some result ↔ i < array.length ∧ array.set i value = result := by
  simp [put?]

theorem put?_eq_some {array result : List Int} {i : Nat} {value : Int}
    (h : put? array i value = some result) : i < array.length ∧ result.length = array.length := by
  obtain ⟨hlt, rfl⟩ := put?_eq_some_iff.1 h
  exact ⟨hlt, List.length_set⟩

variable {array : List Int} {sorted : List Nat} {work : Performance}

/-! ### Insertion sort -/

/-- Behind the first position, either nothing is shifted any more, or the number before the free
place is shifted into it. -/
theorem shiftGreater_succ_cases {key : Int} {j hole : Nat}
    (h : shiftGreater key sorted (j + 1) array = some (hole, work)) :
    (hole = j + 1 ∧ work = .idle array) ∨
      ∃ x rest, array[j]? = some x ∧ key < x ∧ j + 1 < array.length ∧
        shiftGreater key sorted j (array.set (j + 1) x) = some (hole, rest) ∧
        work = rest.after
          [{ array, comparing := [j, j + 1], sorted
             description :=
               Text.ofInt x ++ " > ".toList ++ Text.ofInt key ++ ", shifting right".toList },
            { array := array.set (j + 1) x, swapping := [j, j + 1], sorted
              description := "Shifted ".toList ++ Text.ofInt x }] := by
  rw [shiftGreater_succ] at h
  obtain ⟨x, hx, h⟩ := Option.bind_eq_some_iff.1 h
  split at h
  · next hlt =>
    obtain ⟨shifted, hput, h⟩ := Option.bind_eq_some_iff.1 h
    obtain ⟨⟨hole', rest⟩, hrest, h⟩ := Option.bind_eq_some_iff.1 h
    obtain ⟨rfl, rfl⟩ := Prod.mk.inj (Option.some.inj h)
    obtain ⟨hj, rfl⟩ := put?_eq_some_iff.1 hput
    exact .inr ⟨x, rest, hx, hlt, hj, hrest, rfl⟩
  · obtain ⟨rfl, rfl⟩ := Prod.mk.inj (Option.some.inj h)
    exact .inl ⟨rfl, rfl⟩

/-- Each shift moves a number by one position inside the array. -/
theorem shiftGreater_shows {key : Int} {j hole : Nat}
    (hsorted : ∀ i ∈ sorted, i < array.length)
    (h : shiftGreater key sorted j array = some (hole, work)) :
    Shows (Moment.Fits array.length) array.length work := by
  induction j generalizing array work with
  | zero =>
    rw [shiftGreater_zero] at h
    obtain ⟨rfl, rfl⟩ := Prod.mk.inj (Option.some.inj h)
    exact shows_idle rfl
  | succ j ih =>
    rcases shiftGreater_succ_cases h with ⟨-, rfl⟩ | ⟨x, rest, -, -, hlt, hrest, rfl⟩
    · exact shows_idle rfl
    · have hlength : (array.set (j + 1) x).length = array.length := List.length_set
      have hrest := ih (hlength ▸ hsorted) hrest
      rw [hlength] at hrest
      have hj : j < array.length := Nat.lt_of_succ_lt hlt
      have hplaces : ∀ i ∈ [j, j + 1], i < array.length := by simp [hj, hlt]
      refine Shows.cons (hrest.cons ?_) ?_
      · exact ⟨hlength, by simp, hplaces, hsorted⟩
      · exact ⟨rfl, hplaces, by simp, hsorted⟩

/-- The position whose number is inserted lies in the array, as do all that are shown. -/
theorem insertionStep_shows {i : Nat} (hsorted : ∀ k ∈ sorted, k < array.length)
    (h : insertionStep sorted i array = some work) :
    i < array.length ∧ Shows (Moment.Fits array.length) array.length work := by
  obtain ⟨key, hkey, h⟩ := Option.bind_eq_some_iff.1 h
  obtain ⟨⟨hole, shifts⟩, hshift, h⟩ := Option.bind_eq_some_iff.1 h
  obtain ⟨inserted, hput, h⟩ := Option.bind_eq_some_iff.1 h
  obtain rfl := Option.some.inj h
  have hi : i < array.length := (List.getElem?_eq_some_iff.1 hkey).1
  have hshows := shiftGreater_shows hsorted hshift
  have hlength : inserted.length = array.length := (put?_eq_some hput).2.trans hshows.length_eq
  have hmoves : Shows (Moment.Fits array.length) array.length
      ⟨{ array, comparing := [i], sorted, description := "Inserting ".toList ++ Text.ofInt key ++
          " into sorted portion".toList } :: shifts.moments, inserted⟩ :=
    ⟨hlength, List.forall_mem_cons.2 ⟨⟨rfl, by simpa using hi, by simp, hsorted⟩, hshows.holds⟩⟩
  refine ⟨hi, hmoves.conclude ⟨hlength, by simp, by simp, ?_⟩⟩
  exact List.forall_mem_append.2 ⟨hsorted, List.forall_mem_singleton.2 hi⟩

theorem insertionSteps_shows {i count : Nat} (hsorted : ∀ k ∈ sorted, k < array.length)
    (h : insertionSteps i count sorted array = some work) :
    Shows (Moment.Fits array.length) array.length work := by
  induction count generalizing i sorted array work with
  | zero =>
    obtain rfl := Option.some.inj h
    exact (shows_idle rfl).conclude ⟨rfl, by simp, by simp, hsorted⟩
  | succ count ih =>
    obtain ⟨step, hstep, h⟩ := Option.bind_eq_some_iff.1 h
    obtain ⟨hi, hfirst⟩ := insertionStep_shows hsorted hstep
    refine hfirst.andThen h fun rest hrest => ?_
    rw [← hfirst.length_eq] at hsorted hi ⊢
    exact ih (List.forall_mem_append.2 ⟨hsorted, List.forall_mem_singleton.2 hi⟩) hrest

theorem insertionSort_shows (h : insertionSort array = some work) :
    Shows (Moment.Fits array.length) array.length work := by
  have hsorted : ∀ k ∈ (if array.isEmpty then [] else [0]), k < array.length := by
    cases array with
    | nil => simp
    | cons x xs => simp
  refine Shows.andThen ?_ h fun rest => insertionSteps_shows hsorted
  exact (shows_idle rfl).conclude ⟨rfl, by simp, by simp, hsorted⟩

/-! ### Merge sort -/

/-- The moment fits an array of the given length and names no position as final. -/
def Moment.FitsUnmarked (length : Nat) (moment : Moment) : Prop :=
  moment.Fits length ∧ moment.sorted = []

theorem fitsUnmarked_milestone {description : Text} :
    Moment.FitsUnmarked array.length { array, description } :=
  ⟨⟨rfl, by simp, by simp, by simp⟩, rfl⟩

theorem segment?_eq_some {first last : Nat} {segment : List Int}
    (h : segment? array first last = some segment) :
    first + segment.length = last + 1 ∧ last < array.length := by
  unfold segment? at h
  split at h
  · next hbounds =>
    obtain rfl := Option.some.inj h
    refine ⟨?_, hbounds.2⟩
    rw [List.length_take, List.length_drop]
    omega
  · cases h

theorem length_writeFrom {k : Nat} {xs result : List Int}
    (h : writeFrom k xs array = some result) : result.length = array.length := by
  induction xs generalizing k array with
  | nil => rw [Option.some.inj h]
  | cons x xs ih =>
    obtain ⟨placed, hput, h⟩ := Option.bind_eq_some_iff.1 h
    exact (ih h).trans (put?_eq_some hput).2

/-- While both lists have numbers, the loop compares the first ones, places the lesser one and goes
on without it. -/
theorem exists_of_mergeLoop {k i j : Nat} {x y : Int} {xs ys : List Int}
    (h : mergeLoop k i j (x :: xs) (y :: ys) array = some work) :
    ∃ value rest,
      work = rest.after
        [{ array, comparing := [i, j], description := comparisonWords " and ".toList x y },
          { array := array.set k value, description := "Placed ".toList ++ Text.ofInt value }] ∧
      (x ≤ y ∧ value = x ∧
          mergeLoop (k + 1) (i + 1) j xs (y :: ys) (array.set k value) = some rest ∨
        y < x ∧ value = y ∧
          mergeLoop (k + 1) i (j + 1) (x :: xs) ys (array.set k value) = some rest) := by
  rw [mergeLoop_cons] at h
  obtain ⟨placed, hput, h⟩ := Option.bind_eq_some_iff.1 h
  obtain ⟨-, rfl⟩ := put?_eq_some_iff.1 hput
  rcases le_or_gt x y with hle | hgt
  · simp only [if_pos hle] at h
    obtain ⟨rest, hrest, h⟩ := Option.bind_eq_some_iff.1 h
    exact ⟨x, rest, (Option.some.inj h).symm, .inl ⟨hle, rfl, hrest⟩⟩
  · simp only [if_neg hgt.not_ge] at h
    obtain ⟨rest, hrest, h⟩ := Option.bind_eq_some_iff.1 h
    exact ⟨y, rest, (Option.some.inj h).symm, .inr ⟨hgt, rfl, hrest⟩⟩

/-- The loop compares positions in the segments that its lists were read from. -/
theorem mergeLoop_shows {k i j : Nat} {xs ys : List Int} (hi : i + xs.length ≤ array.length)
    (hj : j + ys.length ≤ array.length) (h : mergeLoop k i j xs ys array = some work) :
    Shows (Moment.FitsUnmarked array.length) array.length work := by
  induction k, i, j, xs, ys, array using mergeLoop.induct generalizing work with
  | case1 k i j x xs y ys array ihLeft ihRight =>
    obtain ⟨value, rest, rfl, hstep⟩ := exists_of_mergeLoop h
    have hlength : (array.set k value).length = array.length := List.length_set
    have hcomparison : Moment.FitsUnmarked array.length
        { array, comparing := [i, j], description := comparisonWords " and ".toList x y } := by
      have hi' : i < array.length := (Nat.lt_add_of_pos_right (Nat.succ_pos _)).trans_le hi
      have hj' : j < array.length := (Nat.lt_add_of_pos_right (Nat.succ_pos _)).trans_le hj
      exact ⟨⟨rfl, by simp [hi', hj'], by simp, by simp⟩, rfl⟩
    have hplacing : Moment.FitsUnmarked array.length
        { array := array.set k value, description := "Placed ".toList ++ Text.ofInt value } :=
      hlength ▸ fitsUnmarked_milestone
    have hrest : Shows (Moment.FitsUnmarked array.length) array.length rest := by
      rw [← hlength] at hi hj ⊢
      rcases hstep with ⟨-, -, hloop⟩ | ⟨-, -, hloop⟩
      · exact ihLeft _ (by rwa [Nat.succ_add_eq_add_succ]) hj hloop
      · exact ihRight _ hi (by rwa [Nat.succ_add_eq_add_succ]) hloop
    exact (hrest.cons hplacing).cons hcomparison
  | case2 k i j xs ys array hend =>
    rw [mergeLoop] at h
    · obtain ⟨result, hwrite, rfl⟩ := Option.map_eq_some_iff.1 h
      exact shows_idle (length_writeFrom hwrite)
    · exact hend

/-- A merge compares positions of its two segments, which lie in the array. -/
theorem mergeSegments_shows {low middle high : Nat}
    (h : mergeSegments low middle high array = some work) :
    Shows (Moment.FitsUnmarked array.length) array.length work := by
  obtain ⟨left, hleft, h⟩ := Option.bind_eq_some_iff.1 h
  obtain ⟨right, hright, h⟩ := Option.bind_eq_some_iff.1 h
  obtain ⟨loop, hloop, h⟩ := Option.bind_eq_some_iff.1 h
  obtain ⟨merged, -, h⟩ := Option.bind_eq_some_iff.1 h
  obtain rfl := Option.some.inj h
  have hleft := segment?_eq_some hleft
  have hright := segment?_eq_some hright
  have hshows := mergeLoop_shows (by omega) (by omega) hloop
  refine (hshows.cons fitsUnmarked_milestone).conclude ?_
  exact hshows.length_eq ▸ fitsUnmarked_milestone

theorem mergeSegment_shows {low high : Nat} (h : mergeSegment low high array = some work) :
    Shows (Moment.FitsUnmarked array.length) array.length work := by
  induction hsize : high - low using Nat.strong_induction_on generalizing low high array work with
  | _ size ih =>
  rw [mergeSegment] at h
  split at h
  · obtain ⟨front, hfront, h⟩ := Option.bind_eq_some_iff.1 h
    obtain ⟨both, hboth, h⟩ := Option.bind_eq_some_iff.1 h
    have hfirst := ih _ (by omega) hfront rfl
    have hsecond : Shows (Moment.FitsUnmarked array.length) array.length both := by
      refine (hfirst.cons fitsUnmarked_milestone).andThen hboth fun rest hrest => ?_
      have hrear := ih _ (by omega) hrest rfl
      exact hfirst.length_eq ▸ hrear
    refine hsecond.andThen h fun rest hrest => ?_
    have hmerge := mergeSegments_shows hrest
    exact hsecond.length_eq ▸ hmerge
  · obtain rfl := Option.some.inj h
    exact shows_idle rfl

/-- Only the last moment of a merge sort names positions as final. -/
theorem mergeSort_shows (h : mergeSort array = some work) :
    ∃ segment description, work = segment.conclude (List.range array.length) description ∧
      Shows (Moment.FitsUnmarked array.length) array.length segment := by
  obtain ⟨segment, hsegment, h⟩ := Option.bind_eq_some_iff.1 h
  refine ⟨segment, _, (Option.some.inj h).symm, ?_⟩
  split at hsegment
  · obtain ⟨last, -, hsegment⟩ := Option.bind_eq_some_iff.1 hsegment
    exact mergeSegment_shows hsegment
  · obtain rfl := Option.some.inj hsegment
    exact shows_idle rfl

end Stepwise.Sorting
