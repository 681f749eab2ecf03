import Mathlib.Algebra.BigOperators.Fin
import Stepwise.Proofs.Sorting.Insertion

/-!
# Swaps and inversions

Bubble sort and insertion sort only ever exchange neighbours, and only if the greater one comes
first. Such an exchange removes the inversion of these two and no other one. So the swaps that
are recorded, together with the inversions that are left, are the inversions of the input; and
nothing is left in the end. In an insertion sort the exchanges are those of the array that has
the key in the free place.

## Main definitions

* `Stepwise.Sorting.inversions` — the pairs of positions whose numbers are out of order.
* `Stepwise.Sorting.Tallies` — the counts of a piece of work account for the inversions that it
  removes.

## Main results

* `Stepwise.Sorting.card_inversions_of_exchange?` — an exchange of neighbours that are out of order
  removes one inversion.
* `Stepwise.Sorting.bubbleSort_tallies`, `Stepwise.Sorting.insertionSort_tallies`
* `Stepwise.Sorting.swaps_eq_inversions` — the counts of the last step of both sorts.
-/

namespace Stepwise.Sorting

/-! ### Inversions -/

/-- The pairs of positions of which the first one has the greater number. -/
def inversions (numbers : List Int) : Finset (Fin numbers.length × Fin numbers.length) :=
  {pair | pair.1 < pair.2 ∧ numbers.get pair.2 < numbers.get pair.1}

theorem card_filter_get_lt (x : Int) (xs : List Int) :
    (Finset.univ.filter fun j : Fin xs.length => xs.get j < x).card = xs.countP (· < x) := by
  induction xs with
  | nil => rfl
  | cons y ys ih =>
    refine (Fin.card_filter_univ_succ' _).trans ?_
    rw [List.countP_cons, ← ih, Nat.add_comm]
    simp only [decide_eq_true_eq]
    rfl

/-- The inversions of the first number are with the lesser ones behind it. -/
theorem card_inversions_cons (x : Int) (xs : List Int) :
    (inversions (x :: xs)).card = xs.countP (· < x) + (inversions xs).card := by
  simp only [inversions, Finset.card_filter, Fintype.sum_prod_type, ← card_filter_get_lt]
  refine (Fin.sum_univ_succ _).trans (congrArg₂ _ ?_ ?_)
  · refine (Fin.sum_univ_succ _).trans ?_
    simp
  · refine Finset.sum_congr rfl fun i _ => (Fin.sum_univ_succ _).trans ?_
    simp

theorem card_inversions_of_pairwise {numbers : List Int} (h : numbers.Pairwise (· ≤ ·)) :
    (inversions numbers).card = 0 := by
  induction numbers with
  | nil => rfl
  | cons x xs ih =>
    obtain ⟨hx, hxs⟩ := List.pairwise_cons.1 h
    rw [card_inversions_cons, ih hxs, Nat.add_zero, List.countP_eq_zero]
    intro y hy
    simpa using hx y hy

/-- Two neighbours in order have one inversion less than out of order. -/
theorem card_inversions_append (before rest : List Int) {x y : Int} (hlt : y < x) :
    (inversions (before ++ x :: y :: rest)).card =
      (inversions (before ++ y :: x :: rest)).card + 1 := by
  induction before with
  | nil =>
    simp only [List.nil_append, card_inversions_cons, List.countP_cons, decide_eq_true hlt,
      decide_eq_false hlt.not_gt, if_true, Bool.false_eq_true, if_false]
    omega
  | cons z before ih =>
    -- The inversions of a number before both do not depend on their order.
    have hcount := ((List.Perm.swap y x rest).append_left before).countP_eq (· < z)
    rw [List.cons_append, List.cons_append, card_inversions_cons, card_inversions_cons, ih, hcount]
    rfl

/-- Positions one after the other split the array around their numbers. -/
theorem exists_append_of_neighbours {array : List Int} {j : Nat} {x y : Int}
    (hx : array[j]? = some x) (hy : array[j + 1]? = some y) :
    ∃ before rest, array = before ++ x :: y :: rest ∧ before.length = j := by
  obtain ⟨hj, rfl⟩ := List.getElem?_eq_some_iff.1 hx
  obtain ⟨hj', rfl⟩ := List.getElem?_eq_some_iff.1 hy
  refine ⟨array.take j, array.drop (j + 2), ?_, List.length_take_of_le hj.le⟩
  rw [← List.drop_eq_getElem_cons hj', ← List.drop_eq_getElem_cons hj, List.take_append_drop]

/-- Exchanging neighbours that are out of order removes one inversion. -/
theorem card_inversions_of_exchange? {array result : List Int} {j : Nat} {x y : Int}
    (hx : array[j]? = some x) (hy : array[j + 1]? = some y) (hlt : y < x)
    (h : exchange? array j (j + 1) = some result) :
    (inversions array).card = (inversions result).card + 1 := by
  obtain ⟨before, rest, rfl, rfl⟩ := exists_append_of_neighbours hx hy
  have hexchange : exchange? (before ++ x :: y :: rest) before.length (before.length + 1) =
      some (before ++ y :: x :: rest) := exchange?_append before [] rest x y
  obtain rfl := Option.some.inj (h.symm.trans hexchange)
  exact card_inversions_append before rest hlt

/-! ### Counts -/

/-- The moment compares positions. -/
def Moment.compares (moment : Moment) : Bool := !moment.comparing.isEmpty

/-- The moment exchanges positions. -/
def Moment.exchanges (moment : Moment) : Bool := !moment.swapping.isEmpty

/-- The counts of the last step are those of all moments. -/
theorem counts_getLast? {moments : List Moment} {last : Step}
    (h : (count moments).getLast? = some last) :
    last.comparisons = moments.countP Moment.compares ∧
      last.swaps = moments.countP Moment.exchanges := by
  have hmoments : (count moments).map Step.toMoment = moments := map_toMoment_countFrom 0 0 moments
  have hne : count moments ≠ [] := by
    rintro hnil
    rw [hnil] at h
    cases h
  rw [List.getLast?_eq_getElem?] at h
  obtain ⟨hcomparisons, hswaps⟩ := counts_of_countFrom h
  change last.comparisons = 0 + ((count moments).take _).countP _ at hcomparisons
  change last.swaps = 0 + ((count moments).take _).countP _ at hswaps
  rw [Nat.sub_one_add_one (List.length_pos_iff.2 hne).ne', List.take_length, Nat.zero_add]
    at hcomparisons hswaps
  have hcount (p : Moment → Bool) : (count moments).countP (p ∘ Step.toMoment) =
      moments.countP p := by
    rw [← List.countP_map, hmoments]
  exact ⟨hcomparisons.trans (hcount Moment.compares), hswaps.trans (hcount Moment.exchanges)⟩

/-- The moments record one swap for each inversion that the work removes. They record `base`
comparisons, and `perSwap` more for each swap. -/
structure Tallies (perSwap base : Nat) (array : List Int) (work : Performance) : Prop where
  comparisons_eq : work.moments.countP Moment.compares =
    base + perSwap * work.moments.countP Moment.exchanges
  inversions_eq : work.moments.countP Moment.exchanges + (inversions work.array).card =
    (inversions array).card

section Tallies

variable {perSwap base base' : Nat} {array middle : List Int} {moments : List Moment}
  {work rest result : Performance}

theorem tallies_idle : Tallies perSwap 0 array (.idle array) :=
  ⟨rfl, Nat.zero_add _⟩

theorem Tallies.after (h : Tallies perSwap base array ⟨moments, middle⟩)
    (hrest : Tallies perSwap base' middle rest) :
    Tallies perSwap (base + base') array (rest.after moments) := by
  obtain ⟨hcomparisons, hinversions⟩ := h
  obtain ⟨hcomparisons', hinversions'⟩ := hrest
  constructor
  · simp only [Performance.after, List.countP_append, Nat.mul_add] at hcomparisons ⊢
    omega
  · simp only [Performance.after, List.countP_append] at hinversions ⊢
    omega

/-- A moment that compares positions and exchanges none is one comparison more. -/
theorem Tallies.cons {moment : Moment} (h : Tallies perSwap base array ⟨moments, middle⟩)
    (hcompares : moment.compares = true) (hexchanges : moment.exchanges = false) :
    Tallies perSwap (base + 1) array ⟨moment :: moments, middle⟩ := by
  have hswaps : (moment :: moments).countP Moment.exchanges = moments.countP Moment.exchanges :=
    List.countP_cons_of_neg (Bool.eq_false_iff.1 hexchanges)
  refine ⟨?_, hswaps ▸ h.inversions_eq⟩
  rw [List.countP_cons_of_pos hcompares, hswaps, h.comparisons_eq, Nat.add_right_comm]

theorem Tallies.andThen {next : List Int → Option Performance} (h : Tallies perSwap base array work)
    (hresult : work.andThen next = some result)
    (hnext : ∀ rest, next work.array = some rest → Tallies perSwap base' work.array rest) :
    Tallies perSwap (base + base') array result := by
  obtain ⟨rest, hrest, rfl⟩ := Option.map_eq_some_iff.1 hresult
  exact Tallies.after h (hnext rest hrest)

theorem Tallies.conclude {sorted : List Nat} {description : Text}
    (h : Tallies perSwap base array work) :
    Tallies perSwap base array (work.conclude sorted description) := by
  obtain ⟨hcomparisons, hinversions⟩ := h
  constructor
  · simpa [Performance.conclude, Moment.compares, Moment.exchanges] using hcomparisons
  · simpa [Performance.conclude, Moment.exchanges] using hinversions

end Tallies

variable {array : List Int} {sorted : List Nat} {work : Performance}

/-! ### Bubble sort -/

/-- Two neighbours are compared once, and exchanged if this removes an inversion. -/
theorem bubbleStep_tallies {j : Nat} (h : bubbleStep sorted array j = some work) :
    Tallies 0 1 array work := by
  obtain ⟨x, hx, h⟩ := Option.bind_eq_some_iff.1 h
  obtain ⟨y, hy, h⟩ := Option.bind_eq_some_iff.1 h
  split at h
  · next hlt =>
    obtain ⟨swapped, hswap, h⟩ := Option.bind_eq_some_iff.1 h
    obtain rfl := Option.some.inj h
    refine ⟨rfl, ?_⟩
    rw [card_inversions_of_exchange? hx hy hlt hswap]
    exact Nat.add_comm 1 _
  · obtain rfl := Option.some.inj h
    exact ⟨rfl, Nat.zero_add _⟩

theorem bubblePass_tallies {j pairs : Nat} (h : bubblePass sorted j pairs array = some work) :
    Tallies 0 pairs array work := by
  induction pairs generalizing j array work with
  | zero =>
    obtain rfl := Option.some.inj h
    exact tallies_idle
  | succ pairs ih =>
    obtain ⟨step, hstep, h⟩ := Option.bind_eq_some_iff.1 h
    have hpass := (bubbleStep_tallies hstep).andThen h fun rest => ih
    rwa [Nat.add_comm] at hpass

/-- The passes compare all pairs of positions up to the last one of the next pass, if they are
counted once. -/
theorem bubblePasses_tallies {n i last : Nat} (hn : n = i + last + 1)
    (h : bubblePasses n i last sorted array = some work) :
    Tallies 0 ((last + 1).choose 2) array work := by
  induction last generalizing i sorted array work with
  | zero =>
    obtain rfl := Option.some.inj h
    exact tallies_idle.conclude
  | succ last ih =>
    rw [bubblePasses_succ hn] at h
    obtain ⟨pass, hpass, h⟩ := Option.bind_eq_some_iff.1 h
    have hpasses := (bubblePass_tallies hpass).andThen h fun rest => ih (by omega)
    rwa [Nat.choose_succ_succ, Nat.choose_one_right]

theorem bubbleSort_tallies (h : bubbleSort array = some work) :
    Tallies 0 (array.length * (array.length - 1) / 2) array work := by
  cases array with
  | nil =>
    obtain rfl := Option.some.inj h
    exact tallies_idle.conclude
  | cons x xs =>
    have hpasses := bubblePasses_tallies (by simp) h
    rwa [← Nat.choose_two_right]

/-! ### Insertion sort -/

/-- Each shift is compared for and recorded once. It removes an inversion of the array that has
the key in the free place. -/
theorem shiftGreater_tallies {key : Int} {j hole : Nat} (hj : j < array.length)
    (h : shiftGreater key sorted j array = some (hole, work)) :
    Tallies 1 0 (array.set j key) ⟨work.moments, work.array.set hole key⟩ := by
  induction j generalizing array work with
  | zero =>
    rw [shiftGreater_zero] at h
    obtain ⟨rfl, rfl⟩ := Prod.mk.inj (Option.some.inj h)
    exact tallies_idle
  | succ j ih =>
    rcases shiftGreater_succ_cases h with ⟨rfl, rfl⟩ | ⟨x, rest, hx, hlt, -, hrest, rfl⟩
    · exact tallies_idle
    · -- A shift writes `x` over the key; the key is then free again one position before.
      have hread : (array.set (j + 1) key)[j]? = some x := by
        rw [List.getElem?_set_ne (Nat.succ_ne_self j), hx]
      have hone := card_inversions_of_exchange? hread (List.getElem?_set_self hj) hlt
        (exchange?_set hx hj)
      have hothers := ih (by rw [List.length_set]; exact Nat.lt_of_succ_lt hj) hrest
      refine Tallies.after ⟨rfl, ?_⟩ hothers
      rw [hone]
      exact Nat.add_comm 1 _

/-- A round compares the key once for each shift, and once more when it begins. -/
theorem insertionStep_tallies {i : Nat} (h : insertionStep sorted i array = some work) :
    Tallies 1 1 array work := by
  obtain ⟨key, hkey, h⟩ := Option.bind_eq_some_iff.1 h
  obtain ⟨⟨hole, shifts⟩, hshift, h⟩ := Option.bind_eq_some_iff.1 h
  obtain ⟨inserted, hput, h⟩ := Option.bind_eq_some_iff.1 h
  obtain rfl := Option.some.inj h
  obtain ⟨-, rfl⟩ := put?_eq_some_iff.1 hput
  obtain ⟨hi, rfl⟩ := List.getElem?_eq_some_iff.1 hkey
  have hshifts := shiftGreater_tallies hi hshift
  rw [List.set_getElem_self] at hshifts
  exact (hshifts.cons rfl rfl).conclude

theorem insertionSteps_tallies {i count : Nat}
    (h : insertionSteps i count sorted array = some work) : Tallies 1 count array work := by
  induction count generalizing i sorted array work with
  | zero =>
    obtain rfl := Option.some.inj h
    exact tallies_idle.conclude
  | succ count ih =>
    obtain ⟨step, hstep, h⟩ := Option.bind_eq_some_iff.1 h
    have hsteps := (insertionStep_tallies hstep).andThen h fun rest => ih
    rwa [Nat.add_comm] at hsteps

theorem insertionSort_tallies (h : insertionSort array = some work) :
    Tallies 1 (array.length - 1) array work := by
  have hsort := tallies_idle.conclude.andThen h fun rest => insertionSteps_tallies
  rwa [Nat.zero_add] at hsort

/-! ### Traces -/

/-- What is tallied of a whole sort are the counts of its last step. -/
theorem exists_last_of_tallies {algorithm : Algorithm} {input : List Int} {perSwap base : Nat}
    (h : ∀ work, perform algorithm input = some work → Tallies perSwap base input work) :
    ∃ last, (trace algorithm input).getLast? = some last ∧
      last.swaps = (inversions input).card ∧
      last.comparisons = base + perSwap * (inversions input).card := by
  obtain ⟨moments, moment, hwork, -, horder, -⟩ := perform_completes algorithm input
  obtain ⟨last, hlast, -⟩ := exists_getLast?_count moments moment
  obtain ⟨hcomparisons, hswaps⟩ := counts_getLast? hlast
  obtain ⟨htally, hinversions⟩ := h _ hwork
  -- The array is in order in the end, so all inversions have been removed.
  rw [card_inversions_of_pairwise horder, Nat.add_zero, ← hswaps] at hinversions
  refine ⟨last, ?_, hinversions, ?_⟩
  · rw [trace, hwork]
    exact hlast
  · rw [hcomparisons, htally, ← hswaps, hinversions]

/-- The swaps of a bubble sort and of an insertion sort are the inversions of the input. A bubble
sort of `n` numbers makes as many comparisons as there are pairs of positions, and an insertion
sort makes one for each number but the first and one for each inversion. -/
theorem swaps_eq_inversions (input : List Int) :
    (∃ last, (trace .bubble input).getLast? = some last ∧
      last.swaps = (inversions input).card ∧
      last.comparisons = input.length * (input.length - 1) / 2) ∧
    ∃ last, (trace .insertion input).getLast? = some last ∧
      last.swaps = (inversions input).card ∧
      last.comparisons = input.length - 1 + (inversions input).card := by
  have hbubble : ∀ work, perform .bubble input = some work →
      Tallies 0 (input.length * (input.length - 1) / 2) input work :=
    fun work hwork => bubbleSort_tallies hwork
  have hinsertion : ∀ work, perform .insertion input = some work →
      Tallies 1 (input.length - 1) input work :=
    fun work hwork => insertionSort_tallies hwork
  constructor
  · simpa using exists_last_of_tallies hbubble
  · simpa using exists_last_of_tallies hinsertion

end Stepwise.Sorting
