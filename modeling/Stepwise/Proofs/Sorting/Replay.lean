import Mathlib.Data.List.Perm.Basic
import Mathlib.Logic.Equiv.Basic
import Mathlib.Order.CompletePartialOrder
import Mathlib.Order.Interval.Set.Disjoint
import Stepwise.Sorting.Moment

/-!
# Replaying the moments of a sort

Some sorts change an array only by exchanges, and each exchange is announced by the moment
before it. Such moments can be replayed: the array of the next moment is known from
the one before. A position that is not exchanged keeps its number, so the positions that
a moment names as final stay as they are if no later moment exchanges them.

## Main definitions

* `Stepwise.Sorting.Moment.Fits` — all positions of a moment lie in an array of a given length.
* `Stepwise.Sorting.Moment.Announces` — what a moment says is true of the array that it shows
  and of the array after it.
* `Stepwise.Sorting.Replays` — moments that announce one array after the other.
* `Stepwise.Sorting.Orderly` — work that can be replayed and never exchanges a position that it
  has named as final.

## Main results

* `Stepwise.Sorting.Replays.append`, `Stepwise.Sorting.Orderly.andThen` — one piece of work
  after another.
* `Stepwise.Sorting.Replays.perm` — all arrays hold the same numbers.
* `Stepwise.Sorting.Replays.keeps` — final positions keep their numbers.
-/

namespace Stepwise.Sorting

/-! ### Exchanges -/

section Exchange

variable {array result : List Int} {i j : Nat}

theorem exchange?_eq_some_iff :
    exchange? array i j = some result ↔
      ∃ x y, array[i]? = some x ∧ array[j]? = some y ∧ (array.set i y).set j x = result := by
  simp [exchange?, Option.bind_eq_some_iff]

/-- An exchange moves the numbers at the two positions and no others. -/
theorem getElem?_of_exchange? (h : exchange? array i j = some result) (k : Nat) :
    result[k]? = array[Equiv.swap i j k]? := by
  obtain ⟨x, y, hx, hy, rfl⟩ := exchange?_eq_some_iff.1 h
  obtain ⟨hi, -⟩ := List.getElem?_eq_some_iff.1 hx
  obtain ⟨hj, -⟩ := List.getElem?_eq_some_iff.1 hy
  rcases eq_or_ne k j with rfl | hkj
  · rw [Equiv.swap_apply_right, hx, List.getElem?_set_self (by rwa [List.length_set])]
  · rw [List.getElem?_set_ne hkj.symm]
    rcases eq_or_ne k i with rfl | hki
    · rw [Equiv.swap_apply_left, hy, List.getElem?_set_self hi]
    · rw [Equiv.swap_apply_of_ne_of_ne hki hkj, List.getElem?_set_ne hki.symm]

theorem perm_of_exchange? (h : exchange? array i j = some result) : result.Perm array := by
  obtain ⟨x, y, hx, hy, rfl⟩ := exchange?_eq_some_iff.1 h
  obtain ⟨hi, rfl⟩ := List.getElem?_eq_some_iff.1 hx
  obtain ⟨hj, rfl⟩ := List.getElem?_eq_some_iff.1 hy
  exact List.set_set_perm hi hj

end Exchange

/-! ### Moments that tell the truth -/

/-- All positions of the moment lie in an array of the given length, which it shows. -/
structure Moment.Fits (length : Nat) (moment : Moment) : Prop where
  length_eq : moment.array.length = length
  comparing_lt : ∀ i ∈ moment.comparing, i < length
  swapping_lt : ∀ i ∈ moment.swapping, i < length
  sorted_lt : ∀ i ∈ moment.sorted, i < length

/-- The words for the comparison of two numbers, with `link` between them. -/
def comparisonWords (link : Text) (x y : Int) : Text :=
  "Comparing ".toList ++ Text.ofInt x ++ link ++ Text.ofInt y

/-- What the moment says is true of the array that it shows and of the array after it. -/
structure Moment.Announces (link : Text) (moment : Moment) (next : List Int) : Prop where
  /-- The array after the moment differs by the exchange, if there is one. -/
  exchanges : moment.swapping = [] ∧ next = moment.array ∨
    ∃ i j, moment.swapping = [i, j] ∧ exchange? moment.array i j = some next
  /-- The words name the numbers at two compared positions. -/
  names : ∀ i j, moment.comparing = [i, j] → ∃ x y, moment.array[i]? = some x ∧
    moment.array[j]? = some y ∧ moment.description = comparisonWords link x y
  /-- The positions lie in the array. -/
  fits : moment.Fits moment.array.length
  /-- No final position is exchanged. -/
  spares : moment.sorted.Disjoint moment.swapping

section Announces

variable {link : Text} {array next : List Int} {sorted : List Nat} {description : Text}
  {i j : Nat}

/-- A moment that compares two positions. -/
theorem announces_comparison {x y : Int} (hx : array[i]? = some x) (hy : array[j]? = some y)
    (hsorted : ∀ k ∈ sorted, k < array.length) :
    Moment.Announces link
      { array, comparing := [i, j], sorted, description := comparisonWords link x y } array where
  exchanges := .inl ⟨rfl, rfl⟩
  names := by
    intro a b hab
    obtain ⟨rfl, rfl⟩ : i = a ∧ j = b := by simpa using hab
    exact ⟨x, y, hx, hy, rfl⟩
  fits := by
    obtain ⟨hi, -⟩ := List.getElem?_eq_some_iff.1 hx
    obtain ⟨hj, -⟩ := List.getElem?_eq_some_iff.1 hy
    exact ⟨rfl, by simp [hi, hj], by simp, hsorted⟩
  spares := List.disjoint_nil_right _

theorem announces_focus {x : Int} (hx : array[i]? = some x)
    (hsorted : ∀ k ∈ sorted, k < array.length) :
    Moment.Announces link { array, comparing := [i], sorted, description } array where
  exchanges := .inl ⟨rfl, rfl⟩
  names := by simp
  fits := by
    obtain ⟨hi, -⟩ := List.getElem?_eq_some_iff.1 hx
    exact ⟨rfl, by simp [hi], by simp, hsorted⟩
  spares := List.disjoint_nil_right _

theorem announces_milestone (hsorted : ∀ k ∈ sorted, k < array.length) :
    Moment.Announces link { array, sorted, description } array where
  exchanges := .inl ⟨rfl, rfl⟩
  names := by simp
  fits := ⟨rfl, by simp, by simp, hsorted⟩
  spares := List.disjoint_nil_right _

theorem announces_swap (hswap : exchange? array i j = some next)
    (hsorted : ∀ k ∈ sorted, k < array.length) (hi : i ∉ sorted) (hj : j ∉ sorted) :
    Moment.Announces link { array, swapping := [i, j], sorted, description } next where
  exchanges := .inr ⟨i, j, rfl, hswap⟩
  names := by simp
  fits := by
    obtain ⟨x, y, hx, hy, -⟩ := exchange?_eq_some_iff.1 hswap
    obtain ⟨hi, -⟩ := List.getElem?_eq_some_iff.1 hx
    obtain ⟨hj, -⟩ := List.getElem?_eq_some_iff.1 hy
    exact ⟨rfl, by simp, by simp [hi, hj], hsorted⟩
  spares := by simp [hi, hj]

end Announces

section Consequences

variable {link : Text} {moment : Moment} {next : List Int}

/-- The array after a moment holds the same numbers. -/
theorem Moment.Announces.perm (h : moment.Announces link next) : next.Perm moment.array := by
  rcases h.exchanges with ⟨-, rfl⟩ | ⟨i, j, -, hswap⟩
  · exact .refl _
  · exact perm_of_exchange? hswap

/-- A position that a moment does not exchange keeps its number. -/
theorem Moment.Announces.getElem?_eq (h : moment.Announces link next) {k : Nat}
    (hk : k ∉ moment.swapping) : next[k]? = moment.array[k]? := by
  rcases h.exchanges with ⟨-, rfl⟩ | ⟨i, j, hswapping, hswap⟩
  · rfl
  · rw [hswapping, List.mem_cons, List.mem_singleton, not_or] at hk
    rw [getElem?_of_exchange? hswap, Equiv.swap_apply_of_ne_of_ne hk.1 hk.2]

end Consequences

/-! ### Moments one after the other -/

/-- Each of the moments shows the array that the one before it announced, from the first
array to the second. -/
inductive Replays (link : Text) : List Int → List Moment → List Int → Prop
  | nil (array : List Int) : Replays link array [] array
  | cons {moment : Moment} {next final : List Int} {moments : List Moment}
      (head : moment.Announces link next) (tail : Replays link next moments final) :
      Replays link moment.array (moment :: moments) final

namespace Replays

variable {link : Text} {array middle final : List Int} {moments others : List Moment}

theorem append (h : Replays link array moments middle) (h' : Replays link middle others final) :
    Replays link array (moments ++ others) final := by
  induction h with
  | nil => exact h'
  | cons head _ ih => exact .cons head (ih h')

/-- All arrays hold the same numbers. -/
theorem perm (h : Replays link array moments final) :
    final.Perm array ∧ ∀ moment ∈ moments, moment.array.Perm array := by
  induction h with
  | nil array => exact ⟨.refl _, by simp⟩
  | cons head _ ih =>
    refine ⟨ih.1.trans head.perm, ?_⟩
    intro moment hmem
    rcases List.mem_cons.1 hmem with rfl | hmem
    · exact .refl _
    · exact (ih.2 moment hmem).trans head.perm

theorem length_eq (h : Replays link array moments final) : final.length = array.length :=
  h.perm.1.length_eq

theorem fits (h : Replays link array moments final) :
    ∀ moment ∈ moments, moment.Fits array.length := by
  induction h with
  | nil => simp
  | cons head _ ih =>
    intro moment hmem
    rcases List.mem_cons.1 hmem with rfl | hmem
    · exact head.fits
    · exact head.perm.length_eq ▸ ih moment hmem

theorem announces (h : Replays link array moments final) :
    ∀ moment ∈ moments, ∃ next, moment.Announces link next := by
  induction h with
  | nil => simp
  | cons head _ ih => exact List.forall_mem_cons.2 ⟨⟨_, head⟩, ih⟩

/-- A position that no moment exchanges keeps its number. -/
theorem getElem?_eq (h : Replays link array moments final) {k : Nat}
    (hk : ∀ moment ∈ moments, k ∉ moment.swapping) :
    ∀ moment ∈ moments, moment.array[k]? = array[k]? := by
  induction h with
  | nil => simp
  | cons head _ ih =>
    obtain ⟨hhead, htail⟩ := List.forall_mem_cons.1 hk
    intro moment hmem
    rcases List.mem_cons.1 hmem with rfl | hmem
    · rfl
    · exact (ih htail moment hmem).trans (head.getElem?_eq hhead)

theorem head?_array (h : Replays link array moments final) (hne : moments ≠ []) :
    moments.head?.map Moment.array = some array := by
  cases h with
  | nil => exact absurd rfl hne
  | cons head tail => rfl

/-- What each moment announces is shown by the next one. -/
theorem isChain (h : Replays link array moments final) :
    moments.IsChain fun moment later => moment.Announces link later.array := by
  induction h with
  | nil => exact .nil
  | cons head tail ih =>
    cases tail with
    | nil => exact .singleton _
    | cons head' tail' => exact .cons_cons head ih

/-- A position keeps its number from the moment on that names it as final, if no later moment
exchanges it. -/
theorem keeps (h : Replays link array moments final)
    (hspares : moments.Pairwise fun moment later => moment.sorted.Disjoint later.swapping) :
    moments.Pairwise fun moment later =>
      ∀ i ∈ moment.sorted, later.array[i]? = moment.array[i]? := by
  induction h with
  | nil => exact .nil
  | cons head tail ih =>
    obtain ⟨hhead, htail⟩ := List.pairwise_cons.1 hspares
    refine List.pairwise_cons.2 ⟨?_, ih htail⟩
    intro later hlater i hi
    have hkept := tail.getElem?_eq (fun moment hmem => hhead moment hmem hi) later hlater
    exact hkept.trans (head.getElem?_eq (head.spares hi))

end Replays

/-! ### Orderly work -/

/-- The moments of the work can be replayed. They name only positions of `marks` as final and
exchange only positions of `swaps`, and no position is exchanged after it was named as final. -/
structure Orderly (link : Text) (marks swaps : Set Nat) (array : List Int) (work : Performance) :
    Prop where
  /-- The moments can be replayed. -/
  replays : Replays link array work.moments work.array
  /-- The positions that are named as final. -/
  marks_mem : ∀ moment ∈ work.moments, ∀ i ∈ moment.sorted, i ∈ marks
  /-- The positions that are exchanged. -/
  swaps_mem : ∀ moment ∈ work.moments, ∀ i ∈ moment.swapping, i ∈ swaps
  /-- No final position is exchanged. -/
  spares : work.moments.Pairwise fun moment later => moment.sorted.Disjoint later.swapping

section Orderly

variable {link : Text} {marks marks' swaps swaps' : Set Nat} {array : List Int}
  {work rest result : Performance}

theorem orderly_idle : Orderly link marks swaps array (.idle array) :=
  ⟨.nil array, by simp [Performance.idle], by simp [Performance.idle], .nil⟩

theorem Orderly.mono (h : Orderly link marks swaps array work) (hmarks : marks ⊆ marks')
    (hswaps : swaps ⊆ swaps') : Orderly link marks' swaps' array work :=
  ⟨h.replays, fun m hm i hi => hmarks (h.marks_mem m hm i hi),
    fun m hm i hi => hswaps (h.swaps_mem m hm i hi), h.spares⟩

/-- Orderly work may follow if it does not exchange what was named as final before. -/
theorem Orderly.after (h : Orderly link marks swaps array work)
    (hrest : Orderly link marks' swaps' work.array rest) (hdisjoint : Disjoint marks swaps') :
    Orderly link (marks ∪ marks') (swaps ∪ swaps') array (rest.after work.moments) where
  replays := h.replays.append hrest.replays
  marks_mem := by
    intro moment hmem i hi
    rcases List.mem_append.1 hmem with hmem | hmem
    · exact .inl (h.marks_mem moment hmem i hi)
    · exact .inr (hrest.marks_mem moment hmem i hi)
  swaps_mem := by
    intro moment hmem i hi
    rcases List.mem_append.1 hmem with hmem | hmem
    · exact .inl (h.swaps_mem moment hmem i hi)
    · exact .inr (hrest.swaps_mem moment hmem i hi)
  spares := by
    refine List.pairwise_append.2 ⟨h.spares, hrest.spares, ?_⟩
    intro moment hmem later hlater i hi hi'
    exact Set.disjoint_left.1 hdisjoint (h.marks_mem moment hmem i hi)
      (hrest.swaps_mem later hlater i hi')

/-- A moment may come first if the work never exchanges what it names as final. -/
theorem Orderly.cons {moment : Moment} {next final : List Int} {moments : List Moment}
    (head : moment.Announces link next) (hmarks : ∀ i ∈ moment.sorted, i ∈ marks ∧ i ∉ swaps)
    (hswaps : ∀ i ∈ moment.swapping, i ∈ swaps)
    (tail : Orderly link marks swaps next ⟨moments, final⟩) :
    Orderly link marks swaps moment.array ⟨moment :: moments, final⟩ where
  replays := .cons head tail.replays
  marks_mem := List.forall_mem_cons.2 ⟨fun i hi => (hmarks i hi).1, tail.marks_mem⟩
  swaps_mem := List.forall_mem_cons.2 ⟨hswaps, tail.swaps_mem⟩
  spares := List.pairwise_cons.2 ⟨fun later hlater i hi hi' =>
    (hmarks i hi).2 (tail.swaps_mem later hlater i hi'), tail.spares⟩

theorem Orderly.andThen {next : List Int → Option Performance}
    (h : Orderly link marks swaps array work) (hresult : work.andThen next = some result)
    (hnext : ∀ rest, next work.array = some rest → Orderly link marks' swaps' work.array rest)
    (hdisjoint : Disjoint marks swaps') :
    Orderly link (marks ∪ marks') (swaps ∪ swaps') array result := by
  obtain ⟨rest, hrest, rfl⟩ := Option.map_eq_some_iff.1 hresult
  exact h.after (hnext rest hrest) hdisjoint

theorem Orderly.conclude {sorted : List Nat} {description : Text}
    (h : Orderly link marks swaps array work) (hsorted : ∀ i ∈ sorted, i < array.length) :
    Orderly link (marks ∪ {i | i ∈ sorted}) swaps array (work.conclude sorted description) := by
  have hlast : Orderly link {i | i ∈ sorted} ∅ work.array
      ⟨[{ array := work.array, sorted, description }], work.array⟩ :=
    .cons (announces_milestone (h.replays.length_eq ▸ hsorted)) (fun i hi => ⟨hi, id⟩) (by simp)
      orderly_idle
  exact (h.after hlast (Set.disjoint_empty _)).mono subset_rfl (by simp)

end Orderly

end Stepwise.Sorting
