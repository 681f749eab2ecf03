import Stepwise.Proofs.Sorting.Recording

/-!
# Moments and what surrounds them

Insertion sort and merge sort work in rounds: a moment opens the round, others follow, and a last
one closes it. What can be said of a moment in the middle refers to the round that it belongs
to, and so to the moments before and after it. This file provides for such statements; they
stay true when other moments are recorded earlier or later.

## Main definitions

* `Stepwise.Sorting.Throughout` — a property of a moment and what surrounds it holds at every
  place of a list of moments.
* `Stepwise.Sorting.Lasting` — a property that further moments at both ends leave true.

## Main results

* `Stepwise.Sorting.Throughout.append` — one list of moments after another.
* `Stepwise.Sorting.throughout_round` — the moments of a round.
* `Stepwise.Sorting.throughout_trace` — from the moments of a sort to the steps of its trace.
-/

namespace Stepwise.Sorting

variable {P : List Moment → Moment → List Moment → Prop} {moments others : List Moment}

/-- Wherever the moments are split, the property holds of those before, of the moment there and
of those after. -/
def Throughout (P : List Moment → Moment → List Moment → Prop) (moments : List Moment) : Prop :=
  ∀ front moment rear, moments = front ++ moment :: rear → P front moment rear

/-- The property stays true when moments are added at both ends. -/
def Lasting (P : List Moment → Moment → List Moment → Prop) : Prop :=
  ∀ before front moment rear behind, P front moment rear →
    P (before ++ front) moment (rear ++ behind)

theorem throughout_singleton {moment : Moment} (h : P [] moment []) : Throughout P [moment] := by
  intro front other rear heq
  obtain ⟨rfl, rfl, rfl⟩ : front = [] ∧ other = moment ∧ rear = [] := by
    simpa [List.singleton_eq_append_iff] using heq
  exact h

/-- What lasts holds throughout two lists one after the other. -/
theorem Throughout.append (hP : Lasting P) (h : Throughout P moments) (h' : Throughout P others) :
    Throughout P (moments ++ others) := by
  intro front moment rear heq
  rcases List.append_eq_append_iff.1 heq with ⟨between, rfl, hothers⟩ | ⟨between, hmoments, hrear⟩
  · have hthere := hP moments between moment rear [] (h' between moment rear hothers)
    rwa [List.append_nil] at hthere
  · cases between with
    | nil =>
      rw [List.append_nil] at hmoments
      have hthere := hP front [] moment rear [] (h' [] moment rear hrear.symm)
      rwa [List.append_nil, List.append_nil] at hthere
    | cons first between =>
      obtain ⟨rfl, rfl⟩ := List.cons.inj hrear
      exact hP [] front moment between others (h front moment between hmoments)

/-- The first moment of a round, the last one and those between them. -/
theorem throughout_round {opening closing : Moment}
    (hopening : ∀ rear, P [] opening rear) (hclosing : ∀ front, P front closing [])
    (hbetween : ∀ front moment rear, moments = front ++ moment :: rear →
      P (opening :: front) moment (rear ++ [closing])) :
    Throughout P (opening :: (moments ++ [closing])) := by
  intro front moment rear heq
  cases front with
  | nil =>
    obtain ⟨rfl, rfl⟩ := List.cons.inj heq
    exact hopening _
  | cons first front =>
    obtain ⟨rfl, hrest⟩ := List.cons.inj heq
    rcases List.eq_nil_or_concat rear with rfl | ⟨rear, last, rfl⟩
    · obtain ⟨-, hlast⟩ := List.append_inj' hrest rfl
      obtain rfl := List.singleton_inj.1 hlast
      exact hclosing _
    · have hsplit : moments ++ [closing] = (front ++ moment :: rear) ++ [last] := by
        simpa using hrest
      obtain ⟨hmoments, hlast⟩ := List.append_inj' hsplit rfl
      obtain rfl := List.singleton_inj.1 hlast
      rw [List.concat_eq_append]
      exact hbetween front moment rear hmoments

/-- What holds throughout the moments of a sort holds at every step of its trace. -/
theorem throughout_trace {algorithm : Algorithm} {input : List Int}
    (hall : ∀ work, perform algorithm input = some work → Throughout P work.moments)
    {front rear : List Step} {step : Step} (h : trace algorithm input = front ++ step :: rear) :
    P (front.map Step.toMoment) step.toMoment (rear.map Step.toMoment) := by
  obtain ⟨work, hwork, -, htrace⟩ := exists_trace algorithm input
  refine hall work hwork _ _ _ ?_
  rw [← map_toMoment_countFrom 0 0 work.moments]
  change (count work.moments).map Step.toMoment = _
  rw [← htrace, h, List.map_append, List.map_cons]

end Stepwise.Sorting
