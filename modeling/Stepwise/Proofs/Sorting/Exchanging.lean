import Stepwise.Proofs.Sorting.Replay
import Stepwise.Sorting.Elementary
import Stepwise.Sorting.Recursive

/-!
# Sorts that only exchange

Bubble sort, selection sort and quick sort are orderly: their moments can be replayed, and a
position that was named as final is not exchanged any more. For each loop it is enough to
know where it exchanges: a pass of a bubble sort works before the final positions, a step of
a selection sort behind them, and quick sort in a segment.

## Main results

* `Stepwise.Sorting.bubbleSort_orderly`
* `Stepwise.Sorting.selectionSort_orderly`
* `Stepwise.Sorting.quickSort_orderly`
-/

namespace Stepwise.Sorting

variable {array : List Int} {sorted : List Nat} {work : Performance}

/-! ### Bubble sort -/

/-- A comparison of neighbours stays before the final positions. -/
theorem bubbleStep_orderly {j : Nat} (hsorted : ∀ i ∈ sorted, j + 1 < i ∧ i < array.length)
    (h : bubbleStep sorted array j = some work) :
    Orderly " and ".toList {i | i ∈ sorted} (Set.Iic (j + 1)) array work := by
  have hlt : ∀ i ∈ sorted, i < array.length := fun i hi => (hsorted i hi).2
  have hmarks : ∀ i ∈ sorted, i ∈ {i | i ∈ sorted} ∧ i ∉ Set.Iic (j + 1) :=
    fun i hi => ⟨hi, (hsorted i hi).1.not_ge⟩
  obtain ⟨x, hx, h⟩ := Option.bind_eq_some_iff.1 h
  obtain ⟨y, hy, h⟩ := Option.bind_eq_some_iff.1 h
  split at h
  · obtain ⟨swapped, hswap, h⟩ := Option.bind_eq_some_iff.1 h
    obtain rfl := Option.some.inj h
    have hlength : swapped.length = array.length := (perm_of_exchange? hswap).length_eq
    refine .cons (announces_comparison hx hy hlt) hmarks (by simp) ?_
    refine .cons (announces_swap hswap hlt ?_ ?_) hmarks (by simp) ?_
    · exact fun hmem => (hsorted j hmem).1.not_ge (Nat.le_succ j)
    · exact fun hmem => (hsorted (j + 1) hmem).1.false
    · exact .cons (announces_milestone (hlength ▸ hlt)) hmarks (by simp) orderly_idle
  · obtain rfl := Option.some.inj h
    exact .cons (announces_comparison hx hy hlt) hmarks (by simp) orderly_idle

/-- A pass exchanges positions up to its end. -/
theorem bubblePass_orderly {j pairs : Nat}
    (hsorted : ∀ i ∈ sorted, j + pairs < i ∧ i < array.length)
    (h : bubblePass sorted j pairs array = some work) :
    Orderly " and ".toList {i | i ∈ sorted} (Set.Iic (j + pairs)) array work := by
  induction pairs generalizing j array work with
  | zero =>
    obtain rfl := Option.some.inj h
    exact orderly_idle
  | succ pairs ih =>
    obtain ⟨step, hstep, h⟩ := Option.bind_eq_some_iff.1 h
    have hfirst := bubbleStep_orderly
      (fun i hi => (hsorted i hi).imp_left (lt_of_le_of_lt (by omega))) hstep
    have hbehind : ∀ i ∈ sorted, j + 1 + pairs < i ∧ i < step.array.length := by
      intro i hi
      rw [hfirst.replays.length_eq, Nat.add_right_comm]
      exact hsorted i hi
    have hdisjoint : Disjoint {i | i ∈ sorted} (Set.Iic (j + 1 + pairs)) :=
      Set.disjoint_left.2 fun i hi hle => (hbehind i hi).1.not_ge hle
    refine (hfirst.andThen h (fun rest => ih hbehind) hdisjoint).mono (Set.union_self _).subset ?_
    exact Set.union_subset (Set.Iic_subset_Iic.2 (by omega)) (Set.Iic_subset_Iic.2 (by omega))

/-- The passes up to a last position leave those behind it alone. -/
theorem bubblePasses_orderly {n i last : Nat} (hn : n = i + last + 1)
    (hlast : last < array.length) (hsorted : ∀ k ∈ sorted, last < k ∧ k < array.length)
    (h : bubblePasses n i last sorted array = some work) :
    Orderly " and ".toList Set.univ (Set.Iic last) array work := by
  induction last generalizing i sorted array work with
  | zero =>
    rw [bubblePasses, if_pos (by omega)] at h
    obtain rfl := Option.some.inj h
    have hidle : Orderly " and ".toList ∅ (Set.Iic 0) array (.idle array) := orderly_idle
    refine (hidle.conclude ?_).mono (Set.subset_univ _) subset_rfl
    exact List.forall_mem_cons.2 ⟨hlast, fun k hk => (hsorted k hk).2⟩
  | succ last ih =>
    rw [bubblePasses_succ hn] at h
    obtain ⟨pass, hpass, h⟩ := Option.bind_eq_some_iff.1 h
    have hfirst := bubblePass_orderly (fun i hi => by simpa using hsorted i hi) hpass
    have hlength := hfirst.replays.length_eq
    have hbehind : ∀ i ∈ sorted, last < i :=
      fun i hi => (Nat.lt_succ_self last).trans (hsorted i hi).1
    refine (hfirst.andThen h (fun rest => ih (by omega) (by omega) ?_) ?_).mono
      (Set.subset_univ _) ?_
    · refine List.forall_mem_cons.2 ⟨⟨Nat.lt_succ_self last, by omega⟩, fun i hi => ?_⟩
      exact ⟨hbehind i hi, hlength ▸ (hsorted i hi).2⟩
    · exact Set.disjoint_left.2 fun i hi hle => (hbehind i hi).not_ge hle
    · exact Set.union_subset (Set.Iic_subset_Iic.2 (by omega)) (Set.Iic_subset_Iic.2 (by omega))

theorem bubbleSort_orderly (h : bubbleSort array = some work) :
    Orderly " and ".toList Set.univ Set.univ array work := by
  cases array with
  | nil =>
    obtain rfl := Option.some.inj h
    have hidle : Orderly " and ".toList ∅ Set.univ [] (.idle []) := orderly_idle
    exact (hidle.conclude (by simp)).mono (Set.subset_univ _) subset_rfl
  | cons x xs =>
    have hpasses := bubblePasses_orderly (by simp) (Nat.lt_succ_self xs.length) (by simp) h
    exact hpasses.mono subset_rfl (Set.subset_univ _)

/-! ### Selection sort -/

/-- The search for the least number exchanges nothing, and does not go back behind where it
starts. -/
theorem selectLeast_orderly {least j count result : Nat} {moments : List Moment}
    (hsorted : ∀ i ∈ sorted, i < array.length) (hleast : least ≤ j)
    (h : selectLeast array sorted least j count = some (result, moments)) :
    least ≤ result ∧ Orderly " with ".toList {i | i ∈ sorted} ∅ array ⟨moments, array⟩ := by
  have hmarks : ∀ i ∈ sorted, i ∈ {i | i ∈ sorted} ∧ i ∉ (∅ : Set Nat) := fun i hi => ⟨hi, id⟩
  induction count generalizing least j moments with
  | zero =>
    obtain ⟨rfl, rfl⟩ := Prod.mk.inj (Option.some.inj h)
    exact ⟨le_rfl, orderly_idle⟩
  | succ count ih =>
    obtain ⟨x, hx, h⟩ := Option.bind_eq_some_iff.1 h
    obtain ⟨y, hy, h⟩ := Option.bind_eq_some_iff.1 h
    split at h
    · obtain ⟨⟨found, others⟩, hrest, h⟩ := Option.bind_eq_some_iff.1 h
      obtain ⟨rfl, rfl⟩ := Prod.mk.inj (Option.some.inj h)
      obtain ⟨hle, horderly⟩ := ih (Nat.le_succ j) hrest
      refine ⟨hleast.trans hle, ?_⟩
      refine .cons (announces_comparison hx hy hsorted) hmarks (by simp) ?_
      exact .cons (announces_focus hy hsorted) hmarks (by simp) horderly
    · obtain ⟨⟨found, others⟩, hrest, h⟩ := Option.bind_eq_some_iff.1 h
      obtain ⟨rfl, rfl⟩ := Prod.mk.inj (Option.some.inj h)
      obtain ⟨hle, horderly⟩ := ih (hleast.trans (Nat.le_succ j)) hrest
      exact ⟨hle, .cons (announces_comparison hx hy hsorted) hmarks (by simp) horderly⟩

/-- A step exchanges only positions from its own on, which then is final. -/
theorem selectionStep_orderly {i count : Nat} (hi : i < array.length)
    (hsorted : ∀ k ∈ sorted, k < i) (h : selectionStep sorted i count array = some work) :
    Orderly " with ".toList (Set.Iic i) (Set.Ici i) array work := by
  have hlt : ∀ k ∈ sorted, k < array.length := fun k hk => (hsorted k hk).trans hi
  have hfinal : ∀ k ∈ sorted ++ [i], k ≤ i :=
    List.forall_mem_append.2 ⟨fun k hk => (hsorted k hk).le, List.forall_mem_singleton.2 le_rfl⟩
  have hmarks : {k | k ∈ sorted} ∪ {k | k ∈ sorted ++ [i]} ⊆ Set.Iic i :=
    Set.union_subset (fun k hk => (hsorted k hk).le) hfinal
  obtain ⟨⟨least, moments⟩, hselect, h⟩ := Option.bind_eq_some_iff.1 h
  obtain ⟨hle, hsearch⟩ := selectLeast_orderly hlt (Nat.le_succ i) hselect
  simp only at h
  split at h
  · obtain rfl := Option.some.inj h
    exact (hsearch.conclude fun k hk => (hfinal k hk).trans_lt hi).mono hmarks (Set.empty_subset _)
  · obtain ⟨x, hx, h⟩ := Option.bind_eq_some_iff.1 h
    obtain ⟨y, hy, h⟩ := Option.bind_eq_some_iff.1 h
    obtain ⟨swapped, hswap, h⟩ := Option.bind_eq_some_iff.1 h
    obtain rfl := Option.some.inj h
    have hdisjoint : Disjoint {k | k ∈ sorted} (Set.Ici i) :=
      Set.disjoint_left.2 fun k hk hge => (hsorted k hk).not_ge hge
    have hexchange : Orderly " with ".toList {k | k ∈ sorted} (Set.Ici i) array
        ⟨[{ array, swapping := [i, least], sorted
            description := "Swapping ".toList ++ Text.ofInt x ++ " and ".toList ++
              Text.ofInt y }], swapped⟩ := by
      refine .cons (announces_swap hswap hlt ?_ ?_) ?_ (by simp [hle]) orderly_idle
      · exact fun hmem => (hsorted i hmem).false
      · exact fun hmem => (hsorted least hmem).not_ge hle
      · exact fun k hk => ⟨hk, (hsorted k hk).not_ge⟩
    have hboth := (hsearch.after hexchange hdisjoint).mono (Set.union_self _).subset
      (Set.empty_union _).subset
    exact (hboth.conclude fun k hk => (hfinal k hk).trans_lt hi).mono hmarks subset_rfl

/-- The steps from a position on leave those before it alone. -/
theorem selectionSteps_orderly {i count : Nat} (hi : array.length = i + count + 1)
    (hsorted : ∀ k ∈ sorted, k < i)
    (h : selectionSteps array.length i count sorted array = some work) :
    Orderly " with ".toList Set.univ (Set.Ici i) array work := by
  induction count generalizing i sorted array work with
  | zero =>
    rw [selectionSteps_zero hi] at h
    obtain rfl := Option.some.inj h
    have hidle : Orderly " with ".toList ∅ (Set.Ici i) array (.idle array) := orderly_idle
    refine (hidle.conclude ?_).mono (Set.subset_univ _) subset_rfl
    refine List.forall_mem_append.2 ⟨fun k hk => ?_, List.forall_mem_singleton.2 ?_⟩
    · exact (hsorted k hk).trans (by omega)
    · omega
  | succ count ih =>
    rw [selectionSteps_succ hi] at h
    obtain ⟨step, hstep, h⟩ := Option.bind_eq_some_iff.1 h
    have hfirst := selectionStep_orderly (by omega) hsorted hstep
    have hlength := hfirst.replays.length_eq
    rw [← hlength] at h
    refine (hfirst.andThen h (fun rest => ih (by omega) ?_) ?_).mono (Set.subset_univ _) ?_
    · refine List.forall_mem_append.2 ⟨fun k hk => ?_, List.forall_mem_singleton.2 ?_⟩
      · exact (hsorted k hk).trans (Nat.lt_succ_self i)
      · exact Nat.lt_succ_self i
    · exact Set.disjoint_left.2 fun k hle hge => (Nat.lt_succ_of_le hle).not_ge hge
    · exact Set.union_subset subset_rfl (Set.Ici_subset_Ici.2 (Nat.le_succ i))

theorem selectionSort_orderly (h : selectionSort array = some work) :
    Orderly " with ".toList Set.univ Set.univ array work := by
  cases array with
  | nil =>
    obtain rfl := Option.some.inj h
    have hidle : Orderly " with ".toList ∅ Set.univ [] (.idle []) := orderly_idle
    exact (hidle.conclude (by simp)).mono (Set.subset_univ _) subset_rfl
  | cons x xs =>
    have hsteps := selectionSteps_orderly (by simp) (by simp) h
    exact hsteps.mono subset_rfl (Set.subset_univ _)

/-! ### Quick sort -/

/-- The loop of a partition exchanges positions of the segment but the last one, where the pivot
stands. -/
theorem partitionLoop_orderly {pivot : Int} {low high store j count final : Nat}
    (hpivot : array[high]? = some pivot) (hlow : low ≤ store) (hstore : store ≤ j)
    (hj : j + count = high)
    (h : partitionLoop pivot high store j count array = some (final, work)) :
    (store ≤ final ∧ final ≤ high) ∧
      Orderly " with pivot ".toList ∅ (Set.Ico low high) array work := by
  induction count generalizing store j array work with
  | zero =>
    obtain ⟨rfl, rfl⟩ := Prod.mk.inj (Option.some.inj h)
    exact ⟨⟨le_rfl, by omega⟩, orderly_idle⟩
  | succ count ih =>
    obtain ⟨x, hx, h⟩ := Option.bind_eq_some_iff.1 h
    split at h
    · split at h
      · obtain ⟨⟨last, rest⟩, hrest, h⟩ := Option.bind_eq_some_iff.1 h
        obtain ⟨rfl, rfl⟩ := Prod.mk.inj (Option.some.inj h)
        obtain ⟨hbounds, horderly⟩ := ih hpivot (by omega) (by omega) (by omega) hrest
        refine ⟨by omega, ?_⟩
        exact .cons (announces_comparison hx hpivot (by simp)) (by simp) (by simp) horderly
      · obtain ⟨y, hy, h⟩ := Option.bind_eq_some_iff.1 h
        obtain ⟨swapped, hswap, h⟩ := Option.bind_eq_some_iff.1 h
        obtain ⟨⟨last, rest⟩, hrest, h⟩ := Option.bind_eq_some_iff.1 h
        obtain ⟨rfl, rfl⟩ := Prod.mk.inj (Option.some.inj h)
        have hpivot' : swapped[high]? = some pivot := by
          rw [getElem?_of_exchange? hswap, Equiv.swap_apply_of_ne_of_ne (by omega) (by omega),
            hpivot]
        obtain ⟨hbounds, horderly⟩ := ih hpivot' (by omega) (by omega) (by omega) hrest
        have hplaces : ∀ i ∈ [store, j], i ∈ Set.Ico low high := by
          simp only [List.mem_cons, List.not_mem_nil, or_false, Set.mem_Ico]
          omega
        refine ⟨by omega, ?_⟩
        refine .cons (announces_comparison hx hpivot (by simp)) (by simp) (by simp) ?_
        refine .cons (announces_swap hswap (by simp) (by simp) (by simp)) (by simp) hplaces ?_
        exact .cons (announces_milestone (by simp)) (by simp) (by simp) horderly
    · obtain ⟨⟨last, rest⟩, hrest, h⟩ := Option.bind_eq_some_iff.1 h
      obtain ⟨rfl, rfl⟩ := Prod.mk.inj (Option.some.inj h)
      obtain ⟨hbounds, horderly⟩ := ih hpivot (by omega) (by omega) (by omega) hrest
      refine ⟨hbounds, ?_⟩
      exact .cons (announces_comparison hx hpivot (by simp)) (by simp) (by simp) horderly

/-- A partition exchanges positions of the segment; at its end the place of the pivot is
final. -/
theorem partition_orderly {low high store : Nat} (hle : low ≤ high)
    (h : partition low high array = some (store, work)) :
    Orderly " with pivot ".toList {store} (Set.Icc low high) array work := by
  obtain ⟨pivot, hpivot, h⟩ := Option.bind_eq_some_iff.1 h
  obtain ⟨⟨final, loop⟩, hloop, h⟩ := Option.bind_eq_some_iff.1 h
  obtain ⟨placed, hplaced, h⟩ := Option.bind_eq_some_iff.1 h
  obtain ⟨rfl, rfl⟩ := Prod.mk.inj (Option.some.inj h)
  obtain ⟨hbounds, horderly⟩ := partitionLoop_orderly hpivot le_rfl le_rfl (by omega) hloop
  have hplacing : Orderly " with pivot ".toList ∅ (Set.Icc low high) loop.array
      ⟨[{ array := loop.array, swapping := [final, high]
          description := "Placing pivot ".toList ++ Text.ofInt pivot ++
            " in correct position".toList }], placed⟩ :=
    .cons (announces_swap hplaced (by simp) (by simp) (by simp)) (by simp)
      (by simp [hbounds, hle]) orderly_idle
  have hmoves := (horderly.after hplacing (Set.empty_disjoint _)).mono
    (Set.union_self _).subset (Set.union_subset Set.Ico_subset_Icc_self subset_rfl)
  have hhigh : high < array.length := (List.getElem?_eq_some_iff.1 hpivot).1
  refine (Orderly.conclude (.cons (announces_focus hpivot ?_) ?_ ?_ hmoves) ?_).mono ?_ subset_rfl
  · simp
  · simp
  · simp
  · simpa using hbounds.2.trans_lt hhigh
  · simp

/-- Quick sort of a segment exchanges and names as final only positions of the segment. -/
theorem quickSegment_orderly {low high : Nat} (h : quickSegment low high array = some work) :
    Orderly " with pivot ".toList (Set.Icc low high) (Set.Icc low high) array work := by
  induction hsize : high - low using Nat.strong_induction_on generalizing low high array work with
  | _ size ih =>
  rw [quickSegment_eq] at h
  split at h
  · next hlt =>
    obtain ⟨⟨middle, first⟩, hpartition, h⟩ := Option.bind_eq_some_iff.1 h
    have hfirst := partition_orderly hlt.le hpartition
    simp only at h
    split at h
    · next hbounds =>
      obtain ⟨front, hfront, h⟩ := Option.bind_eq_some_iff.1 h
      -- The part before the pivot and the part behind it are both shorter, and do not reach it.
      have hbefore : ∀ rest, (if low < middle then quickSegment low (middle - 1) first.array
          else some (.idle first.array)) = some rest →
          Orderly " with pivot ".toList (Set.Ico low middle) (Set.Ico low middle) first.array
            rest := by
        intro rest hrest
        split at hrest
        · next hmiddle =>
          have hsegment := ih (middle - 1 - low) (by omega) hrest rfl
          have hsub : Set.Icc low (middle - 1) ⊆ Set.Ico low middle := by
            intro i hi
            exact ⟨hi.1, hi.2.trans_lt (by omega)⟩
          exact hsegment.mono hsub hsub
        · obtain rfl := Option.some.inj hrest
          exact orderly_idle
      have hbehind : ∀ rest, quickSegment (middle + 1) high front.array = some rest →
          Orderly " with pivot ".toList (Set.Icc low high) (Set.Ioc middle high) front.array
            rest := by
        intro rest hrest
        refine (ih (high - (middle + 1)) (by omega) hrest rfl).mono ?_ fun i hi => hi
        exact Set.Icc_subset_Icc_left (by omega)
      have hfronts : Orderly " with pivot ".toList (Set.Icc low middle) (Set.Icc low high) array
          front := by
        refine (hfirst.andThen hfront hbefore (by simp)).mono ?_ ?_
        · intro i hi
          simp only [Set.mem_union, Set.mem_singleton_iff, Set.mem_Ico, Set.mem_Icc] at hi ⊢
          omega
        · intro i hi
          simp only [Set.mem_union, Set.mem_Ico, Set.mem_Icc] at hi ⊢
          omega
      refine (hfronts.andThen h hbehind ?_).mono ?_ ?_
      · exact Set.disjoint_left.2 fun i hi hi' => hi.2.not_gt hi'.1
      · exact Set.union_subset (Set.Icc_subset_Icc_right hbounds.2) subset_rfl
      · exact Set.union_subset subset_rfl fun i hi => ⟨hbounds.1.trans hi.1.le, hi.2⟩
    · cases h
  · obtain rfl := Option.some.inj h
    exact orderly_idle

theorem quickSort_orderly (h : quickSort array = some work) :
    Orderly " with pivot ".toList Set.univ Set.univ array work := by
  obtain ⟨segment, hsegment, h⟩ := Option.bind_eq_some_iff.1 h
  obtain rfl := Option.some.inj h
  have hsorted : Orderly " with pivot ".toList Set.univ Set.univ array segment := by
    split at hsegment
    · obtain ⟨last, -, hsegment⟩ := Option.bind_eq_some_iff.1 hsegment
      exact (quickSegment_orderly hsegment).mono (Set.subset_univ _) (Set.subset_univ _)
    · obtain rfl := Option.some.inj hsegment
      exact orderly_idle
  exact (hsorted.conclude (by simp)).mono (Set.subset_univ _) subset_rfl

end Stepwise.Sorting
