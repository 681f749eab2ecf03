import Mathlib.Algebra.Order.Ring.Int
import Mathlib.Data.List.Induction
import Stepwise.Proofs.Sorting.Work
import Stepwise.Sorting.Elementary

/-!
# Elementary sorts do sort

For each of the three sorts, what one step makes of the parts of an array is stated first;
the loops then follow by induction on the numbers that they still have to pass. In
between, the invariant of a bubble sort or a selection sort is that the array has a part
that is in order and lies on one side of all other numbers.

## Main results

* `Stepwise.Sorting.bubbleSort_completes`
* `Stepwise.Sorting.selectionSort_completes`
* `Stepwise.Sorting.insertionSort_completes`
-/

namespace Stepwise.Sorting

/-! ### Bubble sort -/

/-- Of two neighbours the lesser comes first. -/
theorem bubbleStep_leaves (sorted : List Nat) (before rest : List Int) (x y : Int) :
    Leaves (bubbleStep sorted (before ++ x :: y :: rest) before.length)
      (before ++ min x y :: max x y :: rest) := by
  have hx : (before ++ x :: y :: rest)[before.length]? = some x := by simp
  have hy : (before ++ x :: y :: rest)[before.length + 1]? = some y := by simp
  simp only [bubbleStep, hx, hy, Option.bind_eq_bind, Option.bind_some]
  rcases lt_or_ge y x with hlt | hle
  · have hswap : exchange? (before ++ x :: y :: rest) before.length (before.length + 1) =
        some (before ++ y :: x :: rest) := exchange?_append before [] rest x y
    rw [if_pos hlt, hswap, min_eq_right hlt.le, max_eq_left hlt.le]
    exact ⟨_, rfl⟩
  · rw [if_neg hle.not_gt, min_eq_left hle, max_eq_right hle]
    exact ⟨_, rfl⟩

/-- A pass carries the greatest number to its end. -/
theorem bubblePass_leaves (sorted : List Nat) (before : List Int) (x : Int) (xs behind : List Int) :
    ∃ front last, (front ++ [last]).Perm (x :: xs) ∧ (∀ z ∈ front, z ≤ last) ∧
      Leaves (bubblePass sorted before.length xs.length (before ++ x :: (xs ++ behind)))
        (before ++ (front ++ last :: behind)) := by
  -- The pass moves on over the lesser neighbour, with the greater one in its hand.
  induction xs generalizing before x with
  | nil => exact ⟨[], x, .refl _, by simp, leaves_idle⟩
  | cons y xs ih =>
    obtain ⟨front, last, hperm, hle, hleaves⟩ := ih (before ++ [min x y]) (max x y)
    have hlast : max x y ≤ last := by
      have hmem : max x y ∈ front ++ [last] := hperm.mem_iff.2 List.mem_cons_self
      rcases List.mem_append.1 hmem with hmem | hmem
      · exact hle _ hmem
      · exact (List.mem_singleton.1 hmem).le
    refine ⟨min x y :: front, last, ?_, ?_, ?_⟩
    · have hpair : [min x y, max x y].Perm [x, y] := by
        rcases le_total x y with h | h
        · rw [min_eq_left h, max_eq_right h]
        · rw [min_eq_right h, max_eq_left h]
          exact .swap x y []
      exact (hperm.cons _).trans (hpair.append_right xs)
    · intro z hz
      rcases List.mem_cons.1 hz with rfl | hz
      · exact min_le_max.trans hlast
      · exact hle z hz
    · refine Leaves.bind (bubbleStep_leaves sorted before (xs ++ behind) x y) ?_
      simpa using hleaves

/-- The passes of a bubble sort complete it when the numbers behind the last position of
the next pass are in order and no less than the others. -/
theorem bubblePasses_completes {n i last : Nat} (hn : n = i + last + 1) (front behind : List Int)
    (hlength : front.length = last + 1) (horder : behind.Pairwise (· ≤ ·))
    (hle : ∀ x ∈ front, ∀ y ∈ behind, x ≤ y) :
    Completes (bubblePasses n i last (List.range' front.length behind.length) (front ++ behind))
      "Bubble sort complete!".toList (front ++ behind) := by
  induction last generalizing i front behind with
  | zero =>
    obtain ⟨x, rfl⟩ := List.length_eq_one_iff.1 hlength
    rw [bubblePasses, if_pos (by omega)]
    refine completes_conclude [] ?_ (.refl _) ?_
    · exact List.pairwise_cons.2 ⟨hle x List.mem_cons_self, horder⟩
    · simp [List.range_eq_range', List.range'_succ]
  | succ last ih =>
    obtain ⟨x, xs, rfl⟩ := List.exists_cons_of_length_eq_add_one hlength
    obtain ⟨front, greatest, hperm, hgreatest, hleaves⟩ :=
      bubblePass_leaves (List.range' (x :: xs).length behind.length) [] x xs behind
    -- The greatest number joins those behind; it is no greater than they are.
    have hbehind : ∀ y ∈ front ++ [greatest], ∀ z ∈ behind, y ≤ z :=
      fun y hy => hle y (hperm.mem_iff.1 hy)
    have hxs : xs.length = last + 1 := Nat.succ.inj hlength
    have hfront : front.length = last + 1 := by
      have := hperm.length_eq
      simp only [List.length_append, List.length_cons, List.length_nil] at this
      omega
    have hmarks : List.range' front.length (greatest :: behind).length =
        (last + 1) :: List.range' (x :: xs).length behind.length := by
      rw [hfront, List.length_cons, List.length_cons, hxs, List.range'_succ]
    have hrest : Completes
        (bubblePasses n (i + 1) last (List.range' front.length (greatest :: behind).length)
          (front ++ greatest :: behind))
        "Bubble sort complete!".toList (front ++ greatest :: behind) := by
      refine ih (by omega) front (greatest :: behind) hfront
        (List.pairwise_cons.2 ⟨?_, horder⟩) ?_
      · exact hbehind greatest (by simp)
      · intro y hy z hz
        rcases List.mem_cons.1 hz with rfl | hz
        · exact hgreatest y hy
        · exact hbehind y (List.mem_append_left _ hy) z hz
    rw [hmarks] at hrest
    rw [hxs] at hleaves
    rw [bubblePasses_succ hn]
    refine Completes.perm (Completes.bind hleaves hrest) ?_
    simpa using hperm.append_right behind

/-- A bubble sort is completed. -/
theorem bubbleSort_completes (input : List Int) :
    Completes (bubbleSort input) "Bubble sort complete!".toList input := by
  cases input with
  | nil => exact completes_conclude [] .nil (.refl _) (.refl _)
  | cons x xs =>
    have hn : (x :: xs).length = 0 + xs.length + 1 := by simp
    have hpasses := bubblePasses_completes hn (x :: xs) [] rfl .nil (by simp)
    simpa [bubbleSort] using hpasses

/-! ### Selection sort -/

/-- The search for the least number behind `before` finds it; so far the number at position
`i` is the least, and `unchecked` is still to be passed. -/
theorem selectLeast_eq (array before front : List Int) (least : Int)
    (behind unchecked : List Int) (i j : Nat) (sorted : List Nat)
    (harray : array = before ++ (front ++ least :: (behind ++ unchecked)))
    (hi : i = (before ++ front).length) (hj : j = (before ++ (front ++ least :: behind)).length)
    (hleast : ∀ z ∈ front ++ least :: behind, least ≤ z) :
    ∃ front' least' behind' moments, array = before ++ (front' ++ least' :: behind') ∧
      (∀ z ∈ front' ++ least' :: behind', least' ≤ z) ∧
      selectLeast array sorted i j unchecked.length =
        some (before.length + front'.length, moments) := by
  induction unchecked generalizing front least behind i j with
  | nil =>
    refine ⟨front, least, behind, [], by simpa using harray, hleast, ?_⟩
    rw [hi, List.length_append]
    rfl
  | cons y unchecked ih =>
    have hx : array[i]? = some least := by
      rw [harray, hi, ← List.append_assoc]
      simp
    have hparts : array = before ++ (front ++ least :: behind) ++ y :: unchecked := by
      simpa using harray
    have hy : array[j]? = some y := by
      rw [hparts, hj]
      simp
    simp only [List.length_cons, selectLeast, hx, hy, Option.bind_eq_bind, Option.bind_some]
    rcases lt_or_ge y least with hlt | hge
    · obtain ⟨front', least', behind', moments, hresult, hleast', hselect⟩ :=
        ih (front ++ least :: behind) y [] j (j + 1)
          (by simpa using harray) (by simpa using hj) (by simp [hj, Nat.add_assoc]) (by
            intro z hz
            rcases List.mem_append.1 hz with hz | hz
            · exact hlt.le.trans (hleast z hz)
            · exact (List.mem_singleton.1 hz).ge)
      rw [if_pos hlt, hselect]
      exact ⟨front', least', behind', _, hresult, hleast', rfl⟩
    · obtain ⟨front', least', behind', moments, hresult, hleast', hselect⟩ :=
        ih front least (behind ++ [y]) i (j + 1)
          (by simpa using harray) hi (by simp [hj, Nat.add_assoc]) (by
            intro z hz
            rw [← List.cons_append, ← List.append_assoc] at hz
            rcases List.mem_append.1 hz with hz | hz
            · exact hleast z hz
            · exact (List.mem_singleton.1 hz) ▸ hge)
      rw [if_neg hge.not_gt, hselect]
      exact ⟨front', least', behind', _, hresult, hleast', rfl⟩

/-- A step of a selection sort puts the least number in front of the others. -/
theorem selectionStep_leaves (sorted : List Nat) (before : List Int) (x : Int) (xs : List Int) :
    ∃ least rest, (least :: rest).Perm (x :: xs) ∧ (∀ z ∈ rest, least ≤ z) ∧
      Leaves (selectionStep sorted before.length xs.length (before ++ x :: xs))
        (before ++ least :: rest) := by
  obtain ⟨front, least, behind, moments, harray, hleast, hselect⟩ :=
    selectLeast_eq (before ++ x :: xs) before [] x [] xs before.length (before.length + 1) sorted
      rfl (by simp) (by simp) (by simp)
  have hnumbers : x :: xs = front ++ least :: behind := List.append_cancel_left harray
  simp only [selectionStep, hselect, Option.bind_eq_bind, Option.bind_some]
  cases front with
  | nil =>
    obtain ⟨rfl, rfl⟩ := List.cons.inj hnumbers
    refine ⟨x, xs, .refl _, fun z hz => hleast z (List.mem_cons_of_mem x hz), ?_⟩
    rw [List.length_nil, Nat.add_zero, if_pos rfl]
    exact ⟨_, rfl⟩
  | cons first front =>
    rw [List.cons_append] at hnumbers
    obtain ⟨rfl, rfl⟩ := List.cons.inj hnumbers
    refine ⟨least, front ++ x :: behind, ?_, ?_, ?_⟩
    · exact ((List.perm_middle.cons least).trans (.swap x least _)).trans
        (List.perm_middle.symm.cons x)
    · intro z hz
      refine hleast z ?_
      simp only [List.mem_append, List.mem_cons] at hz ⊢
      tauto
    · have hne : before.length + (x :: front).length ≠ before.length := by simp
      have hx : (before ++ x :: (front ++ least :: behind))[before.length]? = some x := by simp
      have hy : (before ++ x :: (front ++ least :: behind))[before.length +
          (x :: front).length]? = some least := by
        have hparts : before ++ x :: (front ++ least :: behind) =
            (before ++ x :: front) ++ least :: behind := by simp
        rw [hparts, ← List.length_append]
        simp
      have hswap := exchange?_append before front behind x least
      rw [if_neg hne, hx, hy]
      simp only [Option.bind_some]
      rw [List.length_cons, ← Nat.add_assoc, hswap]
      exact ⟨_, rfl⟩

/-- The steps of a selection sort complete it when the numbers before the next position are
in order and no greater than the others. -/
theorem selectionSteps_completes {n count : Nat} (before rest : List Int)
    (hn : n = before.length + rest.length) (hlength : rest.length = count + 1) (horder : before.Pairwise (· ≤ ·))
    (hle : ∀ x ∈ before, ∀ y ∈ rest, x ≤ y) :
    Completes (selectionSteps n before.length count (List.range before.length) (before ++ rest))
      "Selection sort complete!".toList (before ++ rest) := by
  induction count generalizing before rest with
  | zero =>
    obtain ⟨x, rfl⟩ := List.length_eq_one_iff.1 hlength
    rw [selectionSteps_zero hn]
    refine completes_conclude [] ?_ (.refl _) ?_
    · exact List.pairwise_append.2 ⟨horder, List.pairwise_singleton _ x, hle⟩
    · simp [List.range_succ]
  | succ count ih =>
    obtain ⟨x, xs, rfl⟩ := List.exists_cons_of_length_eq_add_one hlength
    have hxs : xs.length = count + 1 := Nat.succ.inj hlength
    obtain ⟨least, rest, hperm, hleast, hleaves⟩ :=
      selectionStep_leaves (List.range before.length) before x xs
    have hbefore : ∀ y ∈ before, ∀ z ∈ least :: rest, y ≤ z :=
      fun y hy z hz => hle y hy z (hperm.mem_iff.1 hz)
    have hrest : rest.length = count + 1 := by
      have := hperm.length_eq
      simp only [List.length_cons] at this
      omega
    have hn' : n = (before ++ [least]).length + rest.length := by
      simp only [List.length_append, List.length_cons, List.length_nil] at hn ⊢
      omega
    have hsteps := ih (before ++ [least]) rest hn' hrest (by
      refine List.pairwise_append.2 ⟨horder, List.pairwise_singleton _ least, ?_⟩
      intro y hy z hz
      rw [List.mem_singleton.1 hz]
      exact hbefore y hy least List.mem_cons_self) (by
      intro y hy z hz
      rcases List.mem_append.1 hy with hy | hy
      · exact hbefore y hy z (List.mem_cons_of_mem least hz)
      · rw [List.mem_singleton.1 hy]
        exact hleast z hz)
    rw [List.length_append, List.length_singleton, List.range_succ, List.append_assoc,
      List.singleton_append] at hsteps
    rw [hxs] at hleaves
    rw [selectionSteps_succ (by omega)]
    exact Completes.perm (Completes.bind hleaves hsteps) (hperm.append_left before)

/-- A selection sort is completed. -/
theorem selectionSort_completes (input : List Int) :
    Completes (selectionSort input) "Selection sort complete!".toList input := by
  cases input with
  | nil => exact completes_conclude [] .nil (.refl _) (.refl _)
  | cons x xs =>
    have hn : (x :: xs).length = ([] : List Int).length + (x :: xs).length := by simp
    have hsteps := selectionSteps_completes [] (x :: xs) hn rfl .nil (by simp)
    simpa [selectionSort] using hsteps

/-! ### Insertion sort -/

/-- Shifting makes room for the key between the numbers that are no greater than it and
those that are. What stands in the free place no longer matters. -/
theorem shiftGreater_eq (key : Int) (sorted : List Nat) (front : List Int) (hole : Int)
    (rest : List Int) (horder : front.Pairwise (· ≤ ·)) :
    ∃ small large junk moments, front = small ++ large ∧ (∀ z ∈ small, z ≤ key) ∧
      (∀ z ∈ large, key < z) ∧
      shiftGreater key sorted front.length (front ++ hole :: rest) =
        some (small.length, ⟨moments, small ++ junk :: (large ++ rest)⟩) := by
  -- The numbers are met from the last one of `front` on.
  induction front using List.reverseRecOn generalizing hole rest with
  | nil => exact ⟨[], [], hole, [], rfl, by simp, by simp, shiftGreater_zero _ _ _⟩
  | append_singleton front x ih =>
    obtain ⟨hfront, _, hx⟩ := List.pairwise_append.1 horder
    have hread : (front ++ [x] ++ hole :: rest)[front.length]? = some x := by simp
    simp only [List.length_append, List.length_singleton, shiftGreater_succ, hread,
      Option.bind_eq_bind, Option.bind_some]
    rcases lt_or_ge key x with hlt | hge
    · have hput : put? (front ++ [x] ++ hole :: rest) (front.length + 1) x =
          some (front ++ x :: x :: rest) := by
        simpa using put?_append (front ++ [x]) rest hole x
      obtain ⟨small, large, junk, moments, rfl, hsmall, hlarge, hshift⟩ := ih x (x :: rest) hfront
      have hlonger : ∀ z ∈ large ++ [x], key < z := by
        intro z hz
        rcases List.mem_append.1 hz with hz | hz
        · exact hlarge z hz
        · exact (List.mem_singleton.1 hz) ▸ hlt
      have hparts : large ++ x :: rest = large ++ [x] ++ rest := by simp
      rw [if_pos hlt, hput, Option.bind_some, hshift, hparts]
      exact ⟨small, large ++ [x], junk, _, by simp, hsmall, hlonger, rfl⟩
    · rw [if_neg hge.not_gt]
      refine ⟨front ++ [x], [], hole, [], by simp, ?_, by simp, ?_⟩
      · intro z hz
        rcases List.mem_append.1 hz with hz | hz
        · exact (hx z hz x (List.mem_singleton_self x)).trans hge
        · exact (List.mem_singleton.1 hz) ▸ hge
      · rw [List.length_append]
        rfl

/-- A step of an insertion sort inserts the next number among those before it. -/
theorem insertionStep_leaves (sorted : List Nat) (front : List Int) (key : Int) (rest : List Int)
    (horder : front.Pairwise (· ≤ ·)) :
    ∃ longer, longer.Perm (front ++ [key]) ∧ longer.Pairwise (· ≤ ·) ∧
      Leaves (insertionStep sorted front.length (front ++ key :: rest)) (longer ++ rest) := by
  have hread : (front ++ key :: rest)[front.length]? = some key := by simp
  obtain ⟨small, large, junk, moments, rfl, hsmall, hlarge, hshift⟩ :=
    shiftGreater_eq key sorted front key rest horder
  obtain ⟨horderSmall, horderLarge, hcross⟩ := List.pairwise_append.1 horder
  refine ⟨small ++ key :: large, ?_, ?_, ?_⟩
  · rw [List.append_assoc]
    exact List.Perm.append_left small (List.perm_append_singleton key large).symm
  · refine List.pairwise_append.2 ⟨horderSmall, ?_, ?_⟩
    · exact List.pairwise_cons.2 ⟨fun z hz => (hlarge z hz).le, horderLarge⟩
    · intro y hy z hz
      rcases List.mem_cons.1 hz with rfl | hz
      · exact hsmall y hy
      · exact hcross y hy z hz
  · have hput := put?_append small (large ++ rest) junk key
    have hparts : small ++ key :: large ++ rest = small ++ key :: (large ++ rest) := by simp
    simp only [insertionStep, hread, hshift, Option.bind_eq_bind, Option.bind_some, hput]
    rw [hparts]
    exact ⟨_, rfl⟩

/-- The steps of an insertion sort complete it when the numbers before the next position are
in order. -/
theorem insertionSteps_completes (front rest : List Int) (horder : front.Pairwise (· ≤ ·)) :
    Completes (insertionSteps front.length rest.length (List.range front.length) (front ++ rest))
      "Insertion sort complete!".toList (front ++ rest) := by
  induction rest generalizing front with
  | nil =>
    rw [List.append_nil]
    exact completes_conclude [] horder (.refl _) (.refl _)
  | cons key rest ih =>
    obtain ⟨longer, hperm, hlonger, hleaves⟩ :=
      insertionStep_leaves (List.range front.length) front key rest horder
    have hsteps := ih longer hlonger
    rw [hperm.length_eq, List.length_append, List.length_singleton, List.range_succ] at hsteps
    refine Completes.perm (Completes.bind hleaves hsteps) ?_
    simpa using hperm.append_right rest

/-- An insertion sort is completed. -/
theorem insertionSort_completes (input : List Int) :
    Completes (insertionSort input) "Insertion sort complete!".toList input := by
  cases input with
  | nil => exact Completes.andThen _ (completes_conclude [] .nil (.refl _) (.refl _))
  | cons x xs =>
    have hsteps := insertionSteps_completes [x] xs (List.pairwise_singleton _ x)
    exact Completes.andThen _ hsteps

end Stepwise.Sorting
