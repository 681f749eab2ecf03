import Mathlib.Algebra.Order.Ring.Int
import Mathlib.Data.List.Sort
import Stepwise.Proofs.Sorting.Work
import Stepwise.Sorting.Recursive

/-!
# Recursive sorts do sort

Both sorts work on a segment of the array and leave what stands before and behind it. A
segment is sorted by induction on its length.

## Main results

* `Stepwise.Sorting.partition_eq` — a partition puts the pivot between the lesser numbers
  and the others.
* `Stepwise.Sorting.quickSort_completes`
* `Stepwise.Sorting.mergeLoop_leaves` — the loop merges its two lists.
* `Stepwise.Sorting.mergeSort_completes`
-/

namespace Stepwise.Sorting

/-! ### Quick sort -/

/-- The loop of a partition goes on with `rest`; the numbers before it are collected, first
those less than the pivot and then the others. -/
theorem partitionLoop_eq (array before smaller larger rest behind : List Int) (pivot : Int)
    (store j high : Nat) (harray : array = before ++ (smaller ++ (larger ++ (rest ++ behind))))
    (hstore : store = (before ++ smaller).length) (hj : j = (before ++ (smaller ++ larger)).length)
    (hsmaller : ∀ z ∈ smaller, z < pivot) (hlarger : ∀ z ∈ larger, pivot ≤ z) :
    ∃ smaller' larger' moments, (smaller' ++ larger').Perm (smaller ++ (larger ++ rest)) ∧
      (∀ z ∈ smaller', z < pivot) ∧ (∀ z ∈ larger', pivot ≤ z) ∧
      partitionLoop pivot high store j rest.length array =
        some ((before ++ smaller').length,
          ⟨moments, before ++ (smaller' ++ (larger' ++ behind))⟩) := by
  induction rest generalizing array smaller larger store j with
  | nil =>
    refine ⟨smaller, larger, [], by simp, hsmaller, hlarger, ?_⟩
    rw [harray, hstore]
    rfl
  | cons x rest ih =>
    have hx : array[j]? = some x := by
      have hparts : array = before ++ (smaller ++ larger) ++ x :: (rest ++ behind) := by
        simpa using harray
      rw [hparts, hj]
      simp
    simp only [List.length_cons, partitionLoop, hx, Option.bind_eq_bind, Option.bind_some]
    rcases lt_or_ge x pivot with hlt | hge
    · have hsmaller' : ∀ z ∈ smaller ++ [x], z < pivot := by
        intro z hz
        rcases List.mem_append.1 hz with hz | hz
        · exact hsmaller z hz
        · exact (List.mem_singleton.1 hz) ▸ hlt
      rw [if_pos hlt]
      cases larger with
      | nil =>
        have hplace : store = j := by simp [hstore, hj]
        obtain ⟨smaller', larger', moments, hperm, hsmall, hlarge, hloop⟩ :=
          ih array (smaller ++ [x]) [] (store + 1) (j + 1) (by simpa using harray)
            (by simp [hstore, Nat.add_assoc]) (by simp [hj, Nat.add_assoc]) hsmaller' hlarger
        rw [if_pos hplace, hloop]
        exact ⟨smaller', larger', _, by simpa using hperm, hsmall, hlarge, rfl⟩
      | cons y larger =>
        -- The first of the other numbers changes places with `x` and becomes their last.
        have hne : store ≠ j := by simp [hstore, hj]
        have hparts : array = before ++ smaller ++ y :: (larger ++ x :: (rest ++ behind)) := by
          simpa using harray
        have hy : array[store]? = some y := by
          rw [hparts, hstore]
          simp
        have hswap : exchange? array store j =
            some (before ++ smaller ++ x :: (larger ++ y :: (rest ++ behind))) := by
          have hj' : j = (before ++ smaller).length + larger.length + 1 := by
            simp [hj, Nat.add_assoc]
          rw [hparts, hstore, hj']
          exact exchange?_append _ _ _ _ _
        obtain ⟨smaller', larger', moments, hperm, hsmall, hlarge, hloop⟩ :=
          ih (before ++ smaller ++ x :: (larger ++ y :: (rest ++ behind))) (smaller ++ [x])
            (larger ++ [y]) (store + 1) (j + 1) (by simp) (by simp [hstore, Nat.add_assoc])
            (by simp [hj]; omega) hsmaller' (by
              intro z hz
              refine hlarger z ?_
              rw [List.mem_append, List.mem_singleton] at hz
              exact List.mem_cons.2 hz.symm)
        rw [if_neg hne, hy]
        simp only [Option.bind_some]
        rw [hswap]
        simp only [Option.bind_some]
        rw [hloop]
        refine ⟨smaller', larger', _, hperm.trans ?_, hsmall, hlarge, rfl⟩
        simp only [List.append_assoc, List.singleton_append]
        refine List.Perm.append_left smaller ?_
        exact ((List.perm_middle.cons x).trans (.swap y x _)).trans
          (List.perm_middle.symm.cons y)
    · obtain ⟨smaller', larger', moments, hperm, hsmall, hlarge, hloop⟩ :=
        ih array smaller (larger ++ [x]) store (j + 1) (by simpa using harray) hstore
          (by simp [hj, Nat.add_assoc]) hsmaller (by
            intro z hz
            rcases List.mem_append.1 hz with hz | hz
            · exact hlarger z hz
            · exact (List.mem_singleton.1 hz) ▸ hge)
      rw [if_neg hge.not_gt, hloop]
      exact ⟨smaller', larger', _, by simpa using hperm, hsmall, hlarge, rfl⟩

/-- A partition puts the pivot between the numbers less than it and the others. -/
theorem partition_eq (before xs : List Int) (pivot : Int) (behind : List Int) :
    ∃ smaller larger moments, (smaller ++ larger).Perm xs ∧ (∀ z ∈ smaller, z < pivot) ∧
      (∀ z ∈ larger, pivot ≤ z) ∧
      partition before.length (before ++ xs).length (before ++ (xs ++ pivot :: behind)) =
        some ((before ++ smaller).length,
          ⟨moments, before ++ (smaller ++ pivot :: (larger ++ behind))⟩) := by
  have hpivot : (before ++ (xs ++ pivot :: behind))[(before ++ xs).length]? = some pivot := by
    rw [← List.append_assoc]
    simp
  have hcount : (before ++ xs).length - before.length = xs.length := by simp
  obtain ⟨smaller, larger, moments, hperm, hsmaller, hlarger, hloop⟩ :=
    partitionLoop_eq (before ++ (xs ++ pivot :: behind)) before [] [] xs (pivot :: behind) pivot
      before.length before.length (before ++ xs).length rfl (by simp) (by simp) (by simp) (by simp)
  simp only [partition, hpivot, hcount, hloop, Option.bind_eq_bind, Option.bind_some]
  have hlength : xs.length = smaller.length + larger.length := by
    simpa using hperm.length_eq.symm
  cases larger with
  | nil =>
    have hsame : exchange? (before ++ (smaller ++ pivot :: behind)) (before ++ smaller).length
        (before ++ xs).length = some (before ++ (smaller ++ pivot :: behind)) := by
      have hxs : (before ++ xs).length = (before ++ smaller).length := by
        rw [List.length_append, hlength, List.length_nil, Nat.add_zero, List.length_append]
      rw [hxs, ← List.append_assoc]
      exact exchange?_self _ _ _
    rw [List.nil_append, hsame]
    exact ⟨smaller, [], _, hperm, hsmaller, hlarger, rfl⟩
  | cons y larger =>
    have hswap : exchange? (before ++ (smaller ++ (y :: larger ++ pivot :: behind)))
        (before ++ smaller).length (before ++ xs).length =
          some (before ++ (smaller ++ pivot :: (larger ++ [y] ++ behind))) := by
      have := exchange?_append (before ++ smaller) larger behind y pivot
      simpa [hlength, Nat.add_assoc] using this
    rw [hswap]
    refine ⟨smaller, larger ++ [y], _, ?_, hsmaller, ?_, rfl⟩
    · exact ((List.perm_append_singleton y larger).append_left smaller).trans hperm
    · intro z hz
      refine hlarger z ?_
      rw [List.mem_append, List.mem_singleton] at hz
      exact List.mem_cons.2 hz.symm

theorem pairwise_of_length_lt_two {xs : List Int} (h : xs.length < 2) : xs.Pairwise (· ≤ ·) := by
  match xs, h with
  | [], _ => exact .nil
  | [x], _ => exact List.pairwise_singleton _ x

/-- Numbers around a pivot are in order if those on both sides are. -/
theorem pairwise_pivot {smaller larger front rear : List Int} {pivot : Int}
    (hsmaller : ∀ z ∈ smaller, z < pivot) (hlarger : ∀ z ∈ larger, pivot ≤ z)
    (hfront : front.Perm smaller) (hrear : rear.Perm larger)
    (hfrontOrder : front.Pairwise (· ≤ ·)) (hrearOrder : rear.Pairwise (· ≤ ·)) :
    (front ++ pivot :: rear).Pairwise (· ≤ ·) := by
  refine List.pairwise_append.2 ⟨hfrontOrder, List.pairwise_cons.2 ⟨?_, hrearOrder⟩, ?_⟩
  · exact fun z hz => hlarger z (hrear.mem_iff.1 hz)
  · intro y hy z hz
    have hy' := hsmaller y (hfront.mem_iff.1 hy)
    rcases List.mem_cons.1 hz with rfl | hz
    · exact hy'.le
    · exact hy'.le.trans (hlarger z (hrear.mem_iff.1 hz))

/-- Quick sort puts the numbers of a segment in order and leaves all others. -/
theorem quickSegment_leaves {high : Nat} (before segment behind : List Int)
    (hhigh : high + 1 = before.length + segment.length) :
    ∃ result, result.Perm segment ∧ result.Pairwise (· ≤ ·) ∧
      Leaves (quickSegment before.length high (before ++ (segment ++ behind)))
        (before ++ (result ++ behind)) := by
  induction hsize : segment.length using Nat.strong_induction_on
    generalizing before segment behind high with
  | _ size ih =>
  rw [quickSegment_eq]
  by_cases hlong : before.length < high
  · obtain ⟨xs, pivot, rfl⟩ : ∃ xs pivot, segment = xs ++ [pivot] := by
      refine ⟨segment.dropLast, segment.getLast ?_, (List.dropLast_append_getLast _).symm⟩
      rintro rfl
      rw [List.length_nil] at hhigh
      omega
    rw [List.length_append, List.length_singleton] at hhigh hsize
    obtain rfl : high = (before ++ xs).length := by
      rw [List.length_append]
      omega
    obtain ⟨smaller, larger, moments, hperm, hsmaller, hlarger, hpartition⟩ :=
      partition_eq before xs pivot behind
    have hlength : smaller.length + larger.length = xs.length := by
      simpa using hperm.length_eq
    -- Both sides of the pivot are shorter than the segment; the first one may be empty.
    obtain ⟨front, hfrontPerm, hfrontOrder, hfront⟩ : ∃ front, front.Perm smaller ∧
        front.Pairwise (· ≤ ·) ∧
        Leaves (if before.length < (before ++ smaller).length then
            quickSegment before.length ((before ++ smaller).length - 1)
              (before ++ (smaller ++ pivot :: (larger ++ behind)))
          else some (.idle (before ++ (smaller ++ pivot :: (larger ++ behind)))))
          (before ++ (front ++ pivot :: (larger ++ behind))) := by
      by_cases hnonempty : before.length < (before ++ smaller).length
      · have hlast : (before ++ smaller).length - 1 + 1 = before.length + smaller.length := by
          rw [List.length_append] at hnonempty ⊢
          omega
        obtain ⟨front, hfrontPerm, hfrontOrder, hfront⟩ :=
          ih smaller.length (by omega) before smaller (pivot :: (larger ++ behind)) hlast rfl
        rw [if_pos hnonempty]
        exact ⟨front, hfrontPerm, hfrontOrder, hfront⟩
      · obtain rfl : smaller = [] := by
          rw [List.length_append] at hnonempty
          exact List.length_eq_zero_iff.1 (by omega)
        rw [if_neg hnonempty]
        exact ⟨[], .refl _, .nil, leaves_idle⟩
    have hrearLast : (before ++ xs).length + 1 =
        (before ++ (front ++ [pivot])).length + larger.length := by
      simp only [List.length_append, List.length_singleton, hfrontPerm.length_eq]
      omega
    obtain ⟨rear, hrearPerm, hrearOrder, hrear⟩ :=
      ih larger.length (by omega) (before ++ (front ++ [pivot])) larger behind hrearLast rfl
    refine ⟨front ++ pivot :: rear, ?_, ?_, ?_⟩
    · calc List.Perm (front ++ pivot :: rear) (smaller ++ pivot :: larger) :=
          hfrontPerm.append (hrearPerm.cons pivot)
        List.Perm _ (pivot :: (smaller ++ larger)) := List.perm_middle
        List.Perm _ (pivot :: xs) := hperm.cons pivot
        List.Perm _ (xs ++ [pivot]) := (List.perm_append_singleton pivot xs).symm
    · exact pairwise_pivot hsmaller hlarger hfrontPerm hrearPerm hfrontOrder hrearOrder
    · have hparts : before ++ (xs ++ [pivot] ++ behind) = before ++ (xs ++ pivot :: behind) := by
        simp
      have hbounds : before.length ≤ (before ++ smaller).length ∧
          (before ++ smaller).length ≤ (before ++ xs).length := by
        simp only [List.length_append]
        omega
      have hlow : (before ++ smaller).length + 1 = (before ++ (front ++ [pivot])).length := by
        simp [hfrontPerm.length_eq, Nat.add_assoc]
      rw [if_pos hlong, hparts, hpartition]
      simp only [Option.bind_eq_bind, Option.bind_some]
      rw [if_pos hbounds]
      refine Leaves.bind (hfront.after moments) ?_
      rw [hlow]
      simpa using hrear
  · rw [if_neg hlong]
    exact ⟨segment, .refl _, pairwise_of_length_lt_two (by omega), leaves_idle⟩

/-- Quick sort is completed. -/
theorem quickSort_completes (input : List Int) :
    Completes (quickSort input) "Quick sort complete!".toList input := by
  cases input with
  | nil => exact completes_conclude [] .nil (.refl _) (.refl _)
  | cons x xs =>
    have hlast : xs.length + 1 = ([] : List Int).length + (x :: xs).length := by simp
    obtain ⟨result, hperm, horder, moments, hleaves⟩ := quickSegment_leaves [] (x :: xs) [] hlast
    simp only [List.nil_append, List.append_nil, List.length_nil] at hleaves
    have hwork : quickSort (x :: xs) = some ((Performance.mk moments result).conclude
        (List.range (x :: xs).length) "Quick sort complete!".toList) := by
      simp [quickSort, hleaves]
    rw [hwork]
    exact completes_conclude moments horder hperm (.refl _)

/-! ### Merge sort -/

/-- Numbers are written over as many others. -/
theorem writeFrom_append (before xs old behind : List Int) (hlength : old.length = xs.length) :
    writeFrom before.length xs (before ++ (old ++ behind)) = some (before ++ (xs ++ behind)) := by
  induction xs generalizing before old with
  | nil =>
    rw [List.length_eq_zero_iff.1 hlength]
    rfl
  | cons x xs ih =>
    obtain ⟨y, old, rfl⟩ := List.exists_cons_of_length_eq_add_one hlength
    have hput := put?_append before (old ++ behind) y x
    have hrest := ih (before ++ [x]) old (Nat.succ.inj hlength)
    simp only [writeFrom, List.cons_append, hput, Option.bind_eq_bind, Option.bind_some]
    simpa using hrest

/-- The order by which lists are merged. -/
def inOrder (x y : Int) : Bool :=
  decide (x ≤ y)

/-- Merging with an empty list writes the other one. -/
theorem mergeLoop_leaves_of_eq_nil {xs ys : List Int} (hnil : xs = [] ∨ ys = []) (i j : Nat)
    (before old behind : List Int) (hlength : old.length = xs.length + ys.length) :
    Leaves (mergeLoop before.length i j xs ys (before ++ (old ++ behind)))
      (before ++ (xs.merge ys inOrder ++ behind)) := by
  have hwrite := writeFrom_append before (xs ++ ys) old behind (by simpa using hlength)
  rcases hnil with rfl | rfl
  · rw [mergeLoop, hwrite, List.nil_merge]
    · exact leaves_idle
    · simp
  · rw [mergeLoop, hwrite, List.merge_right]
    · rw [List.append_nil]
      exact leaves_idle
    · simp

/-- The loop merges its two lists over as many numbers. -/
theorem mergeLoop_leaves (i j : Nat) (before xs ys old behind : List Int)
    (hlength : old.length = xs.length + ys.length) :
    Leaves (mergeLoop before.length i j xs ys (before ++ (old ++ behind)))
      (before ++ (xs.merge ys inOrder ++ behind)) := by
  -- Each step takes a number from one of the lists, and writes over the first of `old`.
  induction old generalizing i j before xs ys with
  | nil =>
    refine mergeLoop_leaves_of_eq_nil (.inl (List.length_eq_zero_iff.1 ?_)) i j before [] behind
      hlength
    rw [List.length_nil] at hlength
    omega
  | cons z old ih =>
    by_cases hnil : xs = [] ∨ ys = []
    · exact mergeLoop_leaves_of_eq_nil hnil i j before (z :: old) behind hlength
    · obtain ⟨x, xs, rfl⟩ := List.exists_cons_of_ne_nil (not_or.1 hnil).1
      obtain ⟨y, ys, rfl⟩ := List.exists_cons_of_ne_nil (not_or.1 hnil).2
      simp only [List.length_cons] at hlength
      rw [mergeLoop_cons, List.cons_merge_cons]
      rcases le_or_gt x y with hle | hgt
      · have hput := put?_append before (old ++ behind) z x
        obtain ⟨moments, hrest⟩ := ih (i + 1) j (before ++ [x]) xs (y :: ys) (by simp; omega)
        rw [List.length_append, List.length_singleton, List.append_assoc, List.append_assoc,
          List.singleton_append, List.singleton_append] at hrest
        have horder : inOrder x y = true := decide_eq_true hle
        simp only [if_pos hle, List.cons_append, hput, hrest, horder, if_true,
          Option.bind_eq_bind, Option.bind_some]
        exact ⟨_, rfl⟩
      · have hput := put?_append before (old ++ behind) z y
        obtain ⟨moments, hrest⟩ := ih i (j + 1) (before ++ [y]) (x :: xs) ys (by simp; omega)
        rw [List.length_append, List.length_singleton, List.append_assoc, List.append_assoc,
          List.singleton_append, List.singleton_append] at hrest
        have horder : inOrder x y = false := decide_eq_false hgt.not_ge
        simp only [if_neg hgt.not_ge, List.cons_append, hput, hrest, horder, Bool.false_eq_true,
          if_false, Option.bind_eq_bind, Option.bind_some]
        exact ⟨_, rfl⟩

/-- Two segments that follow each other are read one by one. -/
theorem segment?_neighbours {middle high : Nat} (before left right behind : List Int)
    (hmiddle : middle + 1 = before.length + left.length)
    (hhigh : high + 1 = before.length + left.length + right.length) :
    segment? (before ++ (left ++ right ++ behind)) before.length middle = some left ∧
      segment? (before ++ (left ++ right ++ behind)) (middle + 1) high = some right := by
  constructor
  · rw [List.append_assoc]
    exact segment?_append _ _ _ hmiddle
  · have hparts : before ++ (left ++ right ++ behind) = before ++ left ++ (right ++ behind) := by
      simp
    rw [hparts, hmiddle, ← List.length_append]
    refine segment?_append _ _ _ ?_
    rw [List.length_append, hhigh]

/-- Two segments that follow each other are merged. -/
theorem mergeSegments_leaves {middle high : Nat} (before left right behind : List Int)
    (hmiddle : middle + 1 = before.length + left.length)
    (hhigh : high + 1 = before.length + left.length + right.length) :
    Leaves (mergeSegments before.length middle high (before ++ (left ++ right ++ behind)))
      (before ++ (left.merge right inOrder ++ behind)) := by
  obtain ⟨moments, hloop⟩ := mergeLoop_leaves before.length (middle + 1) before left right
    (left ++ right) behind List.length_append
  obtain ⟨hleft, hright⟩ := segment?_neighbours before left right behind hmiddle hhigh
  have hmerged : segment? (before ++ (left.merge right inOrder ++ behind)) before.length high =
      some (left.merge right inOrder) := by
    refine segment?_append _ _ _ ?_
    rw [(List.merge_perm_append inOrder).length_eq, List.length_append, hhigh, Nat.add_assoc]
  simp only [mergeSegments, hleft, hright, hloop, hmerged, Option.bind_eq_bind, Option.bind_some]
  exact ⟨_, rfl⟩

/-- A segment of more than one number has a first half that ends in its middle. -/
theorem exists_halves {low high : Nat} (segment : List Int)
    (hhigh : high + 1 = low + segment.length) (hlong : low < high) :
    ∃ first second, segment = first ++ second ∧
      (low + high) / 2 + 1 = low + first.length := by
  refine ⟨segment.take ((low + high) / 2 + 1 - low), segment.drop ((low + high) / 2 + 1 - low),
    (List.take_append_drop _ _).symm, ?_⟩
  rw [List.length_take]
  omega

/-- Merge sort puts the numbers of a segment in order and leaves all others. -/
theorem mergeSegment_leaves {high : Nat} (before segment behind : List Int)
    (hhigh : high + 1 = before.length + segment.length) :
    ∃ result, result.Perm segment ∧ result.Pairwise (· ≤ ·) ∧
      Leaves (mergeSegment before.length high (before ++ (segment ++ behind)))
        (before ++ (result ++ behind)) := by
  induction hsize : segment.length using Nat.strong_induction_on
    generalizing before segment behind high with
  | _ size ih =>
  rw [mergeSegment]
  by_cases hlong : before.length < high
  · obtain ⟨first, second, rfl, hfirst⟩ := exists_halves segment hhigh hlong
    obtain ⟨middle, hmiddle⟩ : ∃ middle, middle = (before.length + high) / 2 := ⟨_, rfl⟩
    rw [← hmiddle] at hfirst
    rw [List.length_append] at hhigh hsize
    obtain ⟨left, hleftPerm, hleftOrder, moments, hleft⟩ :=
      ih first.length (by omega) before first (second ++ behind) hfirst rfl
    have hlow : middle + 1 = (before ++ left).length := by
      rw [List.length_append, hleftPerm.length_eq, hfirst]
    have hrearLast : high + 1 = (before ++ left).length + second.length := by omega
    obtain ⟨right, hrightPerm, hrightOrder, hright⟩ :=
      ih second.length (by omega) (before ++ left) second behind hrearLast rfl
    have hmerge : Leaves
        (mergeSegments before.length middle high (before ++ (left ++ right ++ behind)))
        (before ++ (left.merge right inOrder ++ behind)) := by
      refine mergeSegments_leaves before left right behind ?_ ?_
      · rw [hleftPerm.length_eq, hfirst]
      · rw [hrearLast, List.length_append, hrightPerm.length_eq]
    refine ⟨left.merge right inOrder, ?_, hleftOrder.merge hrightOrder, ?_⟩
    · exact (List.merge_perm_append inOrder).trans (hleftPerm.append hrightPerm)
    · rw [dif_pos hlong, List.append_assoc]
      simp only [← hmiddle, hleft, Option.bind_eq_bind, Option.bind_some]
      rw [hlow, ← List.append_assoc before left]
      refine Leaves.bind (hright.after _) ?_
      simpa using hmerge
  · rw [dif_neg hlong]
    exact ⟨segment, .refl _, pairwise_of_length_lt_two (by omega), leaves_idle⟩

/-- Merge sort is completed. -/
theorem mergeSort_completes (input : List Int) :
    Completes (mergeSort input) "Merge sort complete!".toList input := by
  cases input with
  | nil => exact completes_conclude [] .nil (.refl _) (.refl _)
  | cons x xs =>
    have hlast : xs.length + 1 = ([] : List Int).length + (x :: xs).length := by simp
    obtain ⟨result, hperm, horder, moments, hleaves⟩ := mergeSegment_leaves [] (x :: xs) [] hlast
    simp only [List.nil_append, List.append_nil, List.length_nil] at hleaves
    have hwork : mergeSort (x :: xs) = some ((Performance.mk moments result).conclude
        (List.range (x :: xs).length) "Merge sort complete!".toList) := by
      simp [mergeSort, hleaves]
    rw [hwork]
    exact completes_conclude moments horder hperm (.refl _)

end Stepwise.Sorting
