import Stepwise.Proofs.Sorting.Context

/-!
# Insertion sort keeps the key

While a number is inserted, the numbers greater than it are shifted one after the other, each
over the free place in front of which it stands. The arrays that are recorded meanwhile show one
number twice and may miss the key. The invariant is about another array, in which the key stands
in the free place: each shift exchanges two neighbours of it.

## Main definitions

* `Stepwise.Sorting.Moment.HoleAt` — the free place that a moment shows.
* `Stepwise.Sorting.Moment.Settled`, `Stepwise.Sorting.Moment.Shifting` — the moments at which all
  numbers are in place, and those at which the key is missing.
* `Stepwise.Sorting.Inserting` — a moment lies between the first and the last one of a round.

## Main results

* `Stepwise.Sorting.exchange?_set` — a shift exchanges two neighbours, one of which is the key.
* `Stepwise.Sorting.shiftGreater_keeps`, `Stepwise.Sorting.insertionStep_keeps` — what the moments
  of a round show.
* `Stepwise.Sorting.insertion_keeps_key` — what all moments of the sort show.
-/

namespace Stepwise.Sorting

/-! ### Free places -/

section Places

variable {array : List Int} {j : Nat} {x key : Int}

/-- With the key in the free place, a shift exchanges it with the number before it. -/
theorem exchange?_set (hx : array[j]? = some x) (hlt : j + 1 < array.length) :
    exchange? (array.set (j + 1) key) j (j + 1) = some ((array.set (j + 1) x).set j key) := by
  refine exchange?_eq_some_iff.2 ⟨x, key, ?_, List.getElem?_set_self hlt, ?_⟩
  · rw [List.getElem?_set_ne (Nat.succ_ne_self j), hx]
  · rw [List.set_comm _ _ (Nat.succ_ne_self j).symm, List.set_set,
      List.set_comm _ _ (Nat.succ_ne_self j)]

/-- Numbers stay in order if one of them is written over the next one. -/
theorem pairwise_set_succ (h : array.Pairwise (· ≤ ·)) (hx : array[j]? = some x) :
    (array.set (j + 1) x).Pairwise (· ≤ ·) := by
  induction array generalizing j with
  | nil => exact .nil
  | cons y ys ih =>
    obtain ⟨hy, hys⟩ := List.pairwise_cons.1 h
    rw [List.set_cons_succ]
    cases j with
    | zero =>
      obtain rfl := Option.some.inj hx
      cases ys with
      | nil => exact h
      | cons z zs =>
        obtain ⟨-, hzs⟩ := List.pairwise_cons.1 hys
        have hle : ∀ a ∈ zs, y ≤ a := fun a ha => hy a (List.mem_cons_of_mem z ha)
        exact List.pairwise_cons.2
          ⟨List.forall_mem_cons.2 ⟨le_rfl, hle⟩, List.pairwise_cons.2 ⟨hle, hzs⟩⟩
    | succ j =>
      refine List.pairwise_cons.2 ⟨fun a ha => ?_, ih hys hx⟩
      rcases List.mem_or_eq_of_mem_set ha with ha | rfl
      · exact hy a ha
      · exact hy a (List.mem_of_getElem? hx)

end Places

/-! ### Moments of a round -/

/-- The free place: the greater of two neighbours that are compared, and the lesser of two between
which a number was shifted. -/
def Moment.HoleAt (moment : Moment) (hole : Nat) : Prop :=
  (∃ j, moment.comparing = [j, j + 1] ∧ moment.swapping = [] ∧ hole = j + 1) ∨
    moment.comparing = [] ∧ moment.swapping = [hole, hole + 1]

/-- The moment compares and shifts no neighbours. It shows the numbers of the input, of which
the first `k` are in order and named as final. -/
structure Moment.Settled (input : List Int) (k : Nat) (moment : Moment) : Prop where
  length_le : k ≤ input.length
  sorted_eq : moment.sorted = List.range k
  order : (moment.array.take k).Pairwise (· ≤ ·)
  comparing_length : moment.comparing.length < 2
  swapping_eq : moment.swapping = []
  perm : moment.array.Perm input

/-- The moment shows a free place, and the numbers of the input once the key is written there. The
first `i` numbers are in order and named as final. -/
structure Moment.Shifting (input : List Int) (i : Nat) (key : Int) (moment : Moment) : Prop where
  sorted_eq : moment.sorted = List.range i
  order : (moment.array.take i).Pairwise (· ≤ ·)
  fills : ∃ hole ≤ i, moment.HoleAt hole ∧ (moment.array.set hole key).Perm input

/-- The words with which the insertion of the key at position `i` begins. -/
def Moment.Opens (i : Nat) (key : Int) (moment : Moment) : Prop :=
  moment.comparing = [i] ∧
    moment.description = "Inserting ".toList ++ Text.ofInt key ++ " into sorted portion".toList

/-- The words with which the insertion of the key ends. They name a position before or at `i`,
where the key stands. -/
def Moment.Closes (i : Nat) (key : Int) (moment : Moment) : Prop :=
  ∃ place ≤ i, moment.array[place]? = some key ∧ moment.description =
    "Inserted ".toList ++ Text.ofInt key ++ " at position ".toList ++ Text.ofNat place

/-- What stands between the given moments belongs to the round in which the key at position `i` is
inserted: the round began before and ends after, and only shows free places in between. -/
def Inserting (i : Nat) (key : Int) (front rear : List Moment) : Prop :=
  ∃ earlier opening shifts others closing later,
    front = earlier ++ opening :: shifts ∧ rear = others ++ closing :: later ∧
    opening.Opens i key ∧ closing.Closes i key ∧
    ∀ other ∈ shifts ++ others, ∃ hole, other.HoleAt hole

/-- What a moment shows: all numbers, or all but the key of the round that it belongs to. -/
def KeepsKey (input : List Int) (front : List Moment) (moment : Moment) (rear : List Moment) :
    Prop :=
  (∃ k, moment.Settled input k) ∨
    ∃ i key, input[i]? = some key ∧ Inserting i key front rear ∧ moment.Shifting input i key

theorem lasting_keepsKey (input : List Int) : Lasting (KeepsKey input) := by
  rintro before front moment rear behind (hsettled | ⟨i, key, hkey, hinserting, hshifting⟩)
  · exact .inl hsettled
  · obtain ⟨earlier, opening, shifts, others, closing, later, rfl, rfl, hround⟩ := hinserting
    refine .inr ⟨i, key, hkey, ?_, hshifting⟩
    exact ⟨before ++ earlier, opening, shifts, others, closing, later ++ behind, by simp, by simp,
      hround⟩

/-! ### Rounds -/

section Rounds

variable {input array : List Int} {i j hole : Nat} {key : Int} {work : Performance}

/-- The invariant of the shifts: with the key at the free place `j`, the array shows the numbers of
the input, and without it the first `i` of them are in order. -/
theorem shiftGreater_keeps (hj : j ≤ i) (horder : (array.take i).Pairwise (· ≤ ·))
    (hperm : (array.set j key).Perm input)
    (h : shiftGreater key (List.range i) j array = some (hole, work)) :
    hole ≤ i ∧ (work.array.set hole key).Perm input ∧
      ∀ moment ∈ work.moments, moment.Shifting input i key := by
  induction j generalizing array work with
  | zero =>
    rw [shiftGreater_zero] at h
    obtain ⟨rfl, rfl⟩ := Prod.mk.inj (Option.some.inj h)
    exact ⟨hj, hperm, by simp [Performance.idle]⟩
  | succ j ih =>
    rcases shiftGreater_succ_cases h with ⟨rfl, rfl⟩ | ⟨x, rest, hx, -, hlt, hrest, rfl⟩
    · exact ⟨hj, hperm, by simp [Performance.idle]⟩
    · -- With the key in the free place, a shift exchanges the key and the greater number.
      have hshifted : ((array.set (j + 1) x).set j key).Perm input :=
        (perm_of_exchange? (exchange?_set hx hlt)).trans hperm
      -- Without it a number is written once more behind itself; at `j + 1 = i`, where the round
      -- begins, this does not even touch the first `i` positions.
      have hkept : ((array.set (j + 1) x).take i).Pairwise (· ≤ ·) := by
        rw [List.take_set]
        refine pairwise_set_succ horder ?_
        rwa [List.getElem?_take_of_lt hj]
      obtain ⟨hhole, hfilled, hmoments⟩ := ih (Nat.le_of_succ_le hj) hkept hshifted hrest
      refine ⟨hhole, hfilled, List.forall_mem_cons.2 ⟨?_, List.forall_mem_cons.2 ⟨?_, hmoments⟩⟩⟩
      · exact ⟨rfl, horder, j + 1, hj, .inl ⟨j, rfl, rfl, rfl⟩, hperm⟩
      · exact ⟨rfl, hkept, j, Nat.le_of_succ_le hj, .inr ⟨rfl, rfl⟩, hshifted⟩

/-- A round inserts the key among the numbers before it. Its first and its last moment show all
numbers, and those between them show all but the key. -/
theorem insertionStep_keeps {front rest : List Int} (horder : front.Pairwise (· ≤ ·))
    (hperm : (front ++ key :: rest).Perm input) (hkey : input[front.length]? = some key)
    (h : insertionStep (List.range front.length) front.length (front ++ key :: rest) = some work) :
    Throughout (KeepsKey input) work.moments ∧ ∃ longer, longer.Perm (front ++ [key]) ∧
      longer.Pairwise (· ≤ ·) ∧ work.array = longer ++ rest := by
  -- What the round leaves is known from the sort; only its moments are left to look at.
  obtain ⟨longer, hlongerPerm, hlonger, moments, hleaves⟩ :=
    insertionStep_leaves (List.range front.length) front key rest horder
  have harray : work.array = longer ++ rest := by
    rw [h] at hleaves
    exact congrArg Performance.array (Option.some.inj hleaves)
  obtain ⟨key', hread, h⟩ := Option.bind_eq_some_iff.1 h
  obtain ⟨⟨hole, shifts⟩, hshift, h⟩ := Option.bind_eq_some_iff.1 h
  obtain ⟨inserted, hput, h⟩ := Option.bind_eq_some_iff.1 h
  obtain rfl := Option.some.inj h
  obtain rfl : key = key' := by simpa using hread
  have hfront : (front ++ key :: rest).take front.length = front := List.take_left
  have hset : (front ++ key :: rest).set front.length key = front ++ key :: rest := by simp
  have hlength : longer.length = front.length + 1 := by
    rw [hlongerPerm.length_eq, List.length_append, List.length_singleton]
  have hbound : front.length < input.length := (List.getElem?_eq_some_iff.1 hkey).1
  obtain ⟨hhole, hfilled, hmoments⟩ :=
    shiftGreater_keeps le_rfl (hfront.symm ▸ horder) (hset.symm ▸ hperm) hshift
  obtain ⟨hlt, rfl⟩ := put?_eq_some_iff.1 hput
  refine ⟨throughout_round ?_ ?_ ?_, longer, hlongerPerm, hlonger, harray⟩
  · exact fun rear => .inl ⟨front.length, hbound.le, rfl, hfront.symm ▸ horder, Nat.one_lt_two, rfl,
      hperm⟩
  · refine fun before => .inl ⟨front.length + 1, hbound, List.range_succ.symm, ?_, Nat.two_pos, rfl,
      hfilled⟩
    change (List.take (front.length + 1) (shifts.array.set hole key)).Pairwise (· ≤ ·)
    rw [show shifts.array.set hole key = longer ++ rest from harray, ← hlength, List.take_left]
    exact hlonger
  · intro before moment behind hsplit
    have hholes : ∀ other ∈ before ++ moment :: behind, other.Shifting input front.length key :=
      hsplit ▸ hmoments
    obtain ⟨hbefore, hmoment, hbehind⟩ : _ ∧ _ ∧ _ := by
      simpa only [List.forall_mem_append, List.forall_mem_cons] using hholes
    refine .inr ⟨front.length, key, hkey, ?_, hmoment⟩
    refine ⟨[], _, before, behind, _, [], rfl, rfl, ⟨rfl, rfl⟩, ?_, ?_⟩
    · exact ⟨hole, hhole, List.getElem?_set_self hlt, rfl⟩
    · intro other hother
      obtain ⟨place, -, hplace, -⟩ :=
        ((List.forall_mem_append.2 ⟨hbefore, hbehind⟩) other hother).fills
      exact ⟨place, hplace⟩

/-- The rounds for the numbers of the input from one position on. -/
theorem insertionSteps_keeps (front rest : List Int) (horder : front.Pairwise (· ≤ ·))
    (hperm : (front ++ rest).Perm input) (hrest : input.drop front.length = rest)
    (h : insertionSteps front.length rest.length (List.range front.length) (front ++ rest) =
      some work) :
    Throughout (KeepsKey input) work.moments := by
  induction rest generalizing front work with
  | nil =>
    obtain rfl := Option.some.inj h
    have hbound : front.length ≤ input.length := by
      rw [← hperm.length_eq, List.append_nil]
    refine throughout_singleton (.inl ⟨front.length, hbound, rfl, ?_, Nat.two_pos, rfl, hperm⟩)
    change (List.take front.length (front ++ [])).Pairwise (· ≤ ·)
    rwa [List.take_left]
  | cons key rest ih =>
    obtain ⟨step, hstep, h⟩ := Option.bind_eq_some_iff.1 h
    obtain ⟨others, hothers, rfl⟩ := Option.map_eq_some_iff.1 h
    have hkey : input[front.length]? = some key := by
      rw [← List.head?_drop, hrest]
      rfl
    obtain ⟨hround, longer, hlongerPerm, hlonger, harray⟩ :=
      insertionStep_keeps horder hperm hkey hstep
    have hlength : longer.length = front.length + 1 := by
      rw [hlongerPerm.length_eq, List.length_append, List.length_singleton]
    rw [harray, ← List.range_succ, ← Nat.add_one, ← hlength] at hothers
    refine hround.append (lasting_keepsKey input) (ih longer hlonger ?_ ?_ hothers)
    · refine (hlongerPerm.append_right rest).trans ?_
      rwa [List.append_assoc]
    · rw [hlength, ← List.drop_drop, hrest]
      rfl

end Rounds

/-- All moments of an insertion sort keep the key. -/
theorem insertionSort_keeps {input : List Int} {work : Performance}
    (h : insertionSort input = some work) : Throughout (KeepsKey input) work.moments := by
  obtain ⟨others, hothers, rfl⟩ := Option.map_eq_some_iff.1 h
  refine Throughout.append (lasting_keepsKey input) (throughout_singleton (.inl ?_)) ?_
  · cases input with
    | nil => exact ⟨0, le_rfl, rfl, .nil, Nat.two_pos, rfl, .refl _⟩
    | cons x xs =>
      exact ⟨1, Nat.succ_pos _, rfl, List.pairwise_singleton _ x, Nat.two_pos, rfl, .refl _⟩
  · cases input with
    | nil => exact insertionSteps_keeps [] [] .nil (.refl _) rfl hothers
    | cons x xs =>
      exact insertionSteps_keeps [x] xs (List.pairwise_singleton _ x) (.refl _) rfl hothers

/-- Insertion sort never loses the key. Every step names the first `k` positions as final, for
some `k`, and shows the numbers there in order. Either it shows the numbers of the input; or it
lies between the first and the last step of the round in which the number at position `k` of
the input is inserted, and shows the numbers of the input once this one is written to the free
place. A step that compares or shifts two neighbours is always of the second kind. -/
theorem insertion_keeps_key (input : List Int) (front : List Step) (step : Step)
    (rear : List Step) (h : trace .insertion input = front ++ step :: rear) :
    ∃ k ≤ input.length, step.sorted = List.range k ∧ (step.array.take k).Pairwise (· ≤ ·) ∧
      (step.comparing.length < 2 ∧ step.swapping = [] ∧ step.array.Perm input ∨
        ∃ key hole, input[k]? = some key ∧
          Inserting k key (front.map Step.toMoment) (rear.map Step.toMoment) ∧
          step.HoleAt hole ∧ hole ≤ k ∧ (step.array.set hole key).Perm input) := by
  have hall : ∀ work, perform .insertion input = some work →
      Throughout (KeepsKey input) work.moments := fun work hwork => insertionSort_keeps hwork
  rcases throughout_trace hall h with
    ⟨k, hsettled⟩ | ⟨i, key, hkey, hinserting, hshifting⟩
  · exact ⟨k, hsettled.length_le, hsettled.sorted_eq, hsettled.order,
      .inl ⟨hsettled.comparing_length, hsettled.swapping_eq, hsettled.perm⟩⟩
  · obtain ⟨hole, hle, hhole, hfilled⟩ := hshifting.fills
    have hlt : i < input.length := (List.getElem?_eq_some_iff.1 hkey).1
    exact ⟨i, hlt.le, hshifting.sorted_eq, hshifting.order,
      .inr ⟨key, hole, hkey, hinserting, hhole, hle, hfilled⟩⟩

/-- The step after the only shift of this sort shows one number twice. -/
theorem insertion_keeps_key_shifted :
    let step : Step :=
      { array := [2, 2], swapping := [0, 1], sorted := [0], description := "Shifted 2".toList
        comparisons := 2, swaps := 1 }
    trace .insertion [2, 1] =
        (trace .insertion [2, 1]).take 3 ++ step :: (trace .insertion [2, 1]).drop 4 ∧
      ¬step.array.Perm [2, 1] ∧
      ∃ k key hole, step.sorted = List.range k ∧ [2, 1][k]? = some key ∧ step.HoleAt hole ∧
        (step.array.set hole key).Perm [2, 1] := by
  intro step
  have hsplit : trace .insertion [2, 1] =
      (trace .insertion [2, 1]).take 3 ++ step :: (trace .insertion [2, 1]).drop 4 := by
    decide +kernel
  refine ⟨hsplit, by decide, ?_⟩
  obtain ⟨k, -, hsorted, -, hshows⟩ := insertion_keeps_key [2, 1] _ step _ hsplit
  rcases hshows with ⟨-, hswapping, -⟩ | ⟨key, hole, hkey, -, hhole, -, hfilled⟩
  · exact absurd hswapping (by decide)
  · exact ⟨k, key, hole, hsorted, hkey, hhole, hfilled⟩

end Stepwise.Sorting
