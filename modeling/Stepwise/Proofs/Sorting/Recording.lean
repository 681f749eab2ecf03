import Stepwise.Proofs.Sorting.Exchanging
import Stepwise.Proofs.Sorting.Positions
import Stepwise.Proofs.Sorting.Trace

/-!
# What the steps of a trace record

The steps of a trace are the moments of a sort, with counts. What holds of the moments is
stated here of the steps: the arrays of three sorts can be replayed, final positions stay as
they are, and all positions lie in the array. A tracer that is used again records what a
new one would.

## Main definitions

* `Stepwise.Sorting.exchangers` — the sorts that only exchange.

## Main results

* `Stepwise.Sorting.exists_trace` — a trace is the counted moments of a sort.
* `Stepwise.Sorting.trace_replays` — the trace of a sort that only exchanges can be replayed.
* `Stepwise.Sorting.final_positions` — a position that was named as final keeps its number.
* `Stepwise.Sorting.Tracer.steps_foldl_addStep` — a tracer records the counted moments.
* `Stepwise.Sorting.Tracer.reuse` — what a tracer records in any sequence of sorts.
-/

namespace Stepwise.Sorting

/-! ### Steps and moments -/

section Steps

variable {moments : List Moment} {step : Step} {t : Nat}

theorem getElem?_of_count (h : (count moments)[t]? = some step) :
    moments[t]? = some step.toMoment := by
  rw [← map_toMoment_countFrom 0 0 moments, List.getElem?_map]
  exact congrArg (Option.map Step.toMoment) h

theorem toMoment_mem_of_count (h : step ∈ count moments) : step.toMoment ∈ moments := by
  rw [← map_toMoment_countFrom 0 0 moments]
  exact List.mem_map_of_mem h

/-- The step compares positions. -/
def Step.compares (step : Step) : Bool := !step.comparing.isEmpty

/-- The step exchanges positions. -/
def Step.exchanges (step : Step) : Bool := !step.swapping.isEmpty

/-- The counts of a step are those before the moments, and one more for each step up to it
that compares or exchanges positions. -/
theorem counts_of_countFrom {comparisons swaps : Nat}
    (h : (countFrom comparisons swaps moments)[t]? = some step) :
    step.comparisons =
        comparisons + ((countFrom comparisons swaps moments).take (t + 1)).countP Step.compares ∧
      step.swaps =
        swaps + ((countFrom comparisons swaps moments).take (t + 1)).countP Step.exchanges := by
  have hcount (n : Nat) (b : Bool) : (if b then n else n + 1) = n + if !b then 1 else 0 := by
    cases b <;> rfl
  induction moments generalizing comparisons swaps t with
  | nil => cases h
  | cons moment moments ih =>
    rw [countFrom] at h ⊢
    rw [List.take_succ_cons, List.countP_cons, List.countP_cons]
    cases t with
    | zero =>
      obtain rfl := Option.some.inj h
      rw [List.take_zero, List.countP_nil, List.countP_nil, Nat.zero_add, Nat.zero_add]
      exact ⟨hcount _ _, hcount _ _⟩
    | succ t =>
      obtain ⟨hcomparisons, hswaps⟩ := ih h
      constructor
      · rw [hcomparisons, hcount, Nat.add_assoc, Nat.add_comm (ite _ _ _)]
        rfl
      · rw [hswaps, hcount, Nat.add_assoc, Nat.add_comm (ite _ _ _)]
        rfl

end Steps

/-- A trace is the counted moments of a sort, of which there are some. -/
theorem exists_trace (algorithm : Algorithm) (input : List Int) :
    ∃ work, perform algorithm input = some work ∧ work.moments ≠ [] ∧
      trace algorithm input = count work.moments := by
  obtain ⟨moments, last, hwork, -⟩ := perform_completes algorithm input
  refine ⟨_, hwork, by simp, ?_⟩
  rw [trace, hwork]

/-! ### Replays -/

/-- The sorts that only exchange, each with the words that it puts between two numbers which
it compares. -/
def exchangers : List (Algorithm × Text) :=
  [(.bubble, " and ".toList), (.selection, " with ".toList), (.quick, " with pivot ".toList)]

section Replays

variable {algorithm : Algorithm} {link : Text} {input : List Int} {work : Performance}

theorem perform_orderly (h : (algorithm, link) ∈ exchangers)
    (hwork : perform algorithm input = some work) :
    Orderly link Set.univ Set.univ input work := by
  simp only [exchangers, List.mem_cons, List.not_mem_nil, or_false, Prod.mk.injEq] at h
  rcases h with ⟨rfl, rfl⟩ | ⟨rfl, rfl⟩ | ⟨rfl, rfl⟩
  · exact bubbleSort_orderly hwork
  · exact selectionSort_orderly hwork
  · exact quickSort_orderly hwork

/-- The trace of a sort that only exchanges can be replayed. The first step shows the input.
A step that exchanges nothing is followed by the same array, and one that exchanges the positions
`a` and `b` by the array with the numbers there exchanged; so every step shows the numbers of
the input. Where a step compares the positions `a` and `b`, it names the numbers that its array
has there, in that order. -/
theorem trace_replays (h : (algorithm, link) ∈ exchangers) (input : List Int) :
    (trace algorithm input).head?.map (·.array) = some input ∧
    (∀ t step next, (trace algorithm input)[t]? = some step →
      (trace algorithm input)[t + 1]? = some next →
      step.swapping = [] ∧ next.array = step.array ∨
      ∃ a b, step.swapping = [a, b] ∧ a < input.length ∧ b < input.length ∧
        ∀ i : Nat, next.array[i]? = step.array[Equiv.swap a b i]?) ∧
    (∀ step ∈ trace algorithm input, step.array.Perm input) ∧
    ∀ step ∈ trace algorithm input, ∀ a b, step.comparing = [a, b] →
      ∃ x y, step.array[a]? = some x ∧ step.array[b]? = some y ∧
        step.description = comparisonWords link x y := by
  obtain ⟨work, hwork, hne, htrace⟩ := exists_trace algorithm input
  have hreplays := (perform_orderly h hwork).replays
  rw [htrace]
  refine ⟨?_, ?_, ?_, ?_⟩
  · have hhead := hreplays.head?_array hne
    rw [← map_toMoment_countFrom 0 0 work.moments, List.head?_map, Option.map_map] at hhead
    exact hhead
  · intro t step next hstep hnext
    obtain ⟨_, hmoment⟩ := List.getElem?_eq_some_iff.1 (getElem?_of_count hstep)
    obtain ⟨hlt, hlater⟩ := List.getElem?_eq_some_iff.1 (getElem?_of_count hnext)
    have hannounces := List.isChain_iff_getElem.1 hreplays.isChain t hlt
    rw [hmoment, hlater] at hannounces
    have hfits := hreplays.fits _ (toMoment_mem_of_count (List.mem_of_getElem? hstep))
    rcases hannounces.exchanges with hsame | ⟨a, b, hswapping, hswap⟩
    · exact .inl hsame
    · refine .inr ⟨a, b, hswapping, ?_, ?_, getElem?_of_exchange? hswap⟩
      · exact hfits.swapping_lt a (hswapping ▸ List.mem_cons_self)
      · exact hfits.swapping_lt b (by simp [hswapping])
  · exact fun step hmem => hreplays.perm.2 _ (toMoment_mem_of_count hmem)
  · intro step hmem
    obtain ⟨next, hannounces⟩ := hreplays.announces _ (toMoment_mem_of_count hmem)
    exact hannounces.names

/-- A quick sort that moves its first pivot to the front, and so exchanges two positions. -/
theorem trace_replays_quick :
    (Algorithm.quick, " with pivot ".toList) ∈ exchangers ∧
      (trace .quick [3, 2, 1]).head?.map (·.array) = some [3, 2, 1] ∧
      (∀ t step next, (trace .quick [3, 2, 1])[t]? = some step →
        (trace .quick [3, 2, 1])[t + 1]? = some next →
        step.swapping = [] ∧ next.array = step.array ∨
        ∃ a b, step.swapping = [a, b] ∧ a < 3 ∧ b < 3 ∧
          ∀ i : Nat, next.array[i]? = step.array[Equiv.swap a b i]?) ∧
      (∀ step ∈ trace .quick [3, 2, 1], step.array.Perm [3, 2, 1]) ∧
      ∀ step ∈ trace .quick [3, 2, 1], ∀ a b, step.comparing = [a, b] →
        ∃ x y, step.array[a]? = some x ∧ step.array[b]? = some y ∧
          step.description = comparisonWords " with pivot ".toList x y := by
  have hmem : (Algorithm.quick, " with pivot ".toList) ∈ exchangers := by decide
  exact ⟨hmem, trace_replays hmem [3, 2, 1]⟩

end Replays

/-! ### Final positions -/

section Final

variable {algorithm : Algorithm} {input : List Int} {work : Performance}

/-- All positions that an algorithm records lie in the array. -/
theorem perform_fits (hwork : perform algorithm input = some work) :
    ∀ moment ∈ work.moments, moment.Fits input.length := by
  cases algorithm with
  | bubble => exact (bubbleSort_orderly hwork).replays.fits
  | selection => exact (selectionSort_orderly hwork).replays.fits
  | insertion => exact (insertionSort_shows hwork).holds
  | quick => exact (quickSort_orderly hwork).replays.fits
  | merge =>
    obtain ⟨segment, description, rfl, hshows⟩ := mergeSort_shows hwork
    refine List.forall_mem_append.2 ⟨fun moment hmem => (hshows.holds moment hmem).1, ?_⟩
    simpa using ⟨hshows.length_eq, by simp, by simp, by simp⟩

/-- All algorithms but insertion sort keep the numbers at the positions that they have named
as final. -/
theorem perform_keeps (h : algorithm ≠ .insertion) (hwork : perform algorithm input = some work) :
    work.moments.Pairwise fun moment later =>
      ∀ i ∈ moment.sorted, later.array[i]? = moment.array[i]? := by
  cases algorithm with
  | bubble =>
    have horderly := bubbleSort_orderly hwork
    exact horderly.replays.keeps horderly.spares
  | selection =>
    have horderly := selectionSort_orderly hwork
    exact horderly.replays.keeps horderly.spares
  | insertion => exact absurd rfl h
  | quick =>
    have horderly := quickSort_orderly hwork
    exact horderly.replays.keeps horderly.spares
  | merge =>
    obtain ⟨segment, description, rfl, hshows⟩ := mergeSort_shows hwork
    have hunmarked : ∀ moment ∈ segment.moments, ∀ later : Moment, ∀ i ∈ moment.sorted,
        later.array[i]? = moment.array[i]? := by
      intro moment hmem later i hi
      rw [(hshows.holds moment hmem).2] at hi
      cases hi
    refine List.pairwise_append.2 ⟨?_, List.pairwise_singleton _ _, ?_⟩
    · exact List.pairwise_of_forall_mem_list fun moment hmem later _ => hunmarked moment hmem later
    · exact fun moment hmem later _ => hunmarked moment hmem later

/-- What one of the algorithms has named as final at a step is there at that step, at any
later one and in the end. -/
theorem getElem?_of_mem_sorted (h : algorithm ≠ .insertion) {t t' i : Nat} {step later : Step}
    (hle : t ≤ t') (hstep : (trace algorithm input)[t]? = some step)
    (hlater : (trace algorithm input)[t']? = some later) (hi : i ∈ step.sorted) :
    later.array[i]? = step.array[i]? := by
  obtain ⟨work, hwork, -, htrace⟩ := exists_trace algorithm input
  rw [htrace] at hstep hlater
  rcases hle.eq_or_lt with rfl | hlt
  · rw [Option.some.inj (hstep.symm.trans hlater)]
  · obtain ⟨ht, hmoment⟩ := List.getElem?_eq_some_iff.1 (getElem?_of_count hstep)
    obtain ⟨ht', hmoment'⟩ := List.getElem?_eq_some_iff.1 (getElem?_of_count hlater)
    have hkeeps := List.pairwise_iff_getElem.1 (perform_keeps h hwork) t t' ht ht' hlt
    rw [hmoment, hmoment'] at hkeeps
    exact hkeeps i hi

/-- The last step of a bubble sort, selection sort, quick sort or merge sort shows the numbers
of the input in order. From the step on that names a position as final, every step shows the
number there that the last one shows. -/
theorem final_positions (h : algorithm ≠ .insertion) (input : List Int) :
    ∃ last, (trace algorithm input).getLast? = some last ∧
      last.array.Pairwise (· ≤ ·) ∧ last.array.Perm input ∧
      ∀ (t t' : Nat) (step later : Step), t ≤ t' → (trace algorithm input)[t]? = some step →
        (trace algorithm input)[t']? = some later →
        ∀ i ∈ step.sorted, ∃ x, later.array[i]? = some x ∧ last.array[i]? = some x := by
  obtain ⟨moments, moment, hwork, -, horder, hperm, -⟩ := perform_completes algorithm input
  have htrace : trace algorithm input = count (moments ++ [moment]) := by
    rw [trace, hwork]
  obtain ⟨last, hlast, rfl⟩ := exists_getLast?_count moments moment
  rw [← htrace] at hlast
  refine ⟨last, hlast, horder, hperm, ?_⟩
  intro t t' step later hle hstep hlater i hi
  have hfits := perform_fits hwork step.toMoment (by
    rw [htrace] at hstep
    exact toMoment_mem_of_count (List.mem_of_getElem? hstep))
  have hlt : i < step.array.length := hfits.length_eq ▸ hfits.sorted_lt i hi
  refine ⟨step.array.get ⟨i, hlt⟩, ?_, ?_⟩
  · rw [getElem?_of_mem_sorted h hle hstep hlater hi]
    exact List.getElem?_eq_getElem hlt
  · rw [List.getLast?_eq_getElem?] at hlast
    have ht : t < (trace algorithm input).length := (List.getElem?_eq_some_iff.1 hstep).1
    rw [getElem?_of_mem_sorted h (Nat.le_sub_one_of_lt ht) hstep hlast hi]
    exact List.getElem?_eq_getElem hlt

/-- A quick sort whose first pivot comes to stand between two other numbers. -/
theorem final_positions_quick :
    Algorithm.quick ≠ .insertion ∧
      ∃ last, (trace .quick [3, 1, 2]).getLast? = some last ∧
        last.array.Pairwise (· ≤ ·) ∧ last.array.Perm [3, 1, 2] ∧
        ∀ (t t' : Nat) (step later : Step), t ≤ t' → (trace .quick [3, 1, 2])[t]? = some step →
          (trace .quick [3, 1, 2])[t']? = some later →
          ∀ i ∈ step.sorted, ∃ x, later.array[i]? = some x ∧ last.array[i]? = some x :=
  ⟨by decide, final_positions (by decide) [3, 1, 2]⟩

end Final

/-! ### Tracers -/

namespace Tracer

/-- A tracer adds the counted moments to the steps that it has, and keeps its input. -/
theorem steps_foldl_addStep (tracer : Tracer) (moments : List Moment) :
    (moments.foldl addStep tracer).input = tracer.input ∧
      (moments.foldl addStep tracer).steps.toList =
        tracer.steps.toList ++ countFrom tracer.comparisons tracer.swaps moments := by
  induction moments generalizing tracer with
  | nil => exact ⟨rfl, (List.append_nil _).symm⟩
  | cons moment moments ih =>
    obtain ⟨hinput, hsteps⟩ := ih (tracer.addStep moment)
    refine ⟨hinput, ?_⟩
    rw [List.foldl_cons, hsteps, countFrom]
    simp [addStep]

/-- What a tracer recorded before does not matter to the steps of the next sort. -/
theorem trace_eq (tracer : Tracer) (algorithm : Algorithm) :
    (tracer.trace algorithm).1 = Sorting.trace algorithm tracer.input ∧
      (tracer.trace algorithm).2.input = tracer.input := by
  obtain ⟨work, hwork, -, htrace⟩ := exists_trace algorithm tracer.input
  obtain ⟨hinput, hsteps⟩ := tracer.clear.steps_foldl_addStep work.moments
  rw [trace, hwork, htrace]
  exact ⟨hsteps, hinput⟩

theorem traceAll_eq (tracer : Tracer) (algorithms : List Algorithm) :
    (tracer.traceAll algorithms).1 =
        algorithms.map (fun algorithm => Sorting.trace algorithm tracer.input) ∧
      (tracer.traceAll algorithms).2.input = tracer.input := by
  induction algorithms generalizing tracer with
  | nil => exact ⟨rfl, rfl⟩
  | cons algorithm algorithms ih =>
    obtain ⟨hsteps, hinput⟩ := tracer.trace_eq algorithm
    -- The next tracer has other counts, but `trace_eq` asks for nothing but its input.
    obtain ⟨hothers, hlast⟩ := ih (tracer.trace algorithm).2
    rw [hinput] at hothers hlast
    refine ⟨?_, hlast⟩
    rw [traceAll, List.map_cons, ← hsteps, ← hothers]

/-- Whatever sorts a tracer records one after the other, each trace is the one that a new tracer
gives, and the input stays. A trace is not empty. At each of its places, the counts are the
numbers of steps up to there that compare and that exchange positions, the array is as
long as the input, and all positions lie in it. -/
theorem reuse (input : List Int) (algorithms : List Algorithm) :
    ((ofInput input).traceAll algorithms).1 =
        algorithms.map (fun algorithm => ((ofInput input).trace algorithm).1) ∧
      ((ofInput input).traceAll algorithms).2.input = input ∧
      ∀ steps ∈ ((ofInput input).traceAll algorithms).1, steps ≠ [] ∧
        ∀ (t : Nat) (step : Step), steps[t]? = some step →
          step.comparisons = (steps.take (t + 1)).countP Step.compares ∧
          step.swaps = (steps.take (t + 1)).countP Step.exchanges ∧
          step.array.length = input.length ∧ (∀ i ∈ step.comparing, i < input.length) ∧
          (∀ i ∈ step.swapping, i < input.length) ∧ ∀ i ∈ step.sorted, i < input.length := by
  obtain ⟨htraces, hinput⟩ := (ofInput input).traceAll_eq algorithms
  refine ⟨?_, hinput, ?_⟩
  · rw [htraces]
    exact List.map_congr_left fun algorithm _ => ((ofInput input).trace_eq algorithm).1.symm
  · intro steps hmem
    rw [htraces] at hmem
    obtain ⟨algorithm, -, rfl⟩ := List.mem_map.1 hmem
    obtain ⟨work, hwork, hne, htrace⟩ := exists_trace algorithm (ofInput input).input
    rw [htrace]
    refine ⟨fun hnil => hne ?_, ?_⟩
    · rw [← map_toMoment_countFrom 0 0 work.moments]
      exact congrArg (List.map Step.toMoment) hnil
    · intro t step hstep
      obtain ⟨hcomparisons, hswaps⟩ := counts_of_countFrom hstep
      rw [Nat.zero_add] at hcomparisons hswaps
      have hfits := perform_fits hwork _ (toMoment_mem_of_count (List.mem_of_getElem? hstep))
      exact ⟨hcomparisons, hswaps, hfits.length_eq, hfits.comparing_lt, hfits.swapping_lt,
        hfits.sorted_lt⟩

end Tracer

end Stepwise.Sorting
