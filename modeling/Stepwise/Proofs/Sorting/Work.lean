import Mathlib.Data.List.Perm.Basic
import Stepwise.Sorting.Moment

/-!
# Work on an array in parts

An array is written here as its parts one after the other. The length of what stands
before a part is then the position at which the part starts, so a position that is met in
this way lies in the array, and reading or writing there succeeds.

## Main definitions

* `Stepwise.Sorting.Leaves` — a piece of work has a result and leaves a given array.
* `Stepwise.Sorting.Completes` — a sort has a result whose last moment shows it done.

## Main results

* `Stepwise.Sorting.exchange?_append`, `put?_append`, `segment?_append` — positions
  between parts are in the array.
* `Stepwise.Sorting.Leaves.bind`, `Completes.bind` — one piece of work after another.
-/

namespace Stepwise.Sorting

/-! ### Positions between parts -/

variable (before between middle rest : List Int) (x y : Int)

theorem put?_append :
    put? (before ++ x :: rest) before.length y = some (before ++ y :: rest) := by
  simp [put?]

theorem exchange?_append :
    exchange? (before ++ x :: (between ++ y :: rest)) before.length
        (before.length + between.length + 1) =
      some (before ++ y :: (between ++ x :: rest)) := by
  have hfirst : (before ++ x :: (between ++ y :: rest))[before.length]? = some x := by simp
  have hsecond : (before ++ x :: (between ++ y :: rest))[before.length + between.length + 1]? =
      some y := by
    simp [Nat.add_assoc]
  rw [exchange?, hfirst, hsecond]
  simp [Nat.add_assoc]

theorem exchange?_self :
    exchange? (before ++ x :: rest) before.length before.length = some (before ++ x :: rest) := by
  simp [exchange?]

theorem segment?_append {last : Nat} (hlast : last + 1 = before.length + middle.length) :
    segment? (before ++ (middle ++ rest)) before.length last = some middle := by
  have hbounds : before.length ≤ last + 1 ∧ last < (before ++ (middle ++ rest)).length := by
    simp only [List.length_append]
    omega
  rw [segment?, if_pos hbounds, hlast]
  simp

/-! ### Results -/

/-- The work has a result, and leaves the given array. -/
def Leaves (work : Option Performance) (array : List Int) : Prop :=
  ∃ moments, work = some ⟨moments, array⟩

/-- The work has a result. Its last moment has the given description, shows the numbers of
the input in order, and names each position as final once. -/
def Completes (work : Option Performance) (description : Text) (input : List Int) : Prop :=
  ∃ moments, ∃ last : Moment, work = some ⟨moments ++ [last], last.array⟩ ∧
    last.description = description ∧ last.array.Pairwise (· ≤ ·) ∧ last.array.Perm input ∧
    last.sorted.Perm (List.range input.length)

variable {before between middle rest x y}
variable {work : Option Performance} {next : List Int → Option Performance}
  {array result input input' : List Int} {description : Text} {sorted : List Nat}

theorem leaves_idle : Leaves (some (.idle array)) array :=
  ⟨[], rfl⟩

/-- Moments before the work do not matter to what it leaves. -/
theorem Leaves.after (h : Leaves work array) (moments : List Moment) :
    Leaves (work.map (Performance.after moments)) array := by
  obtain ⟨others, rfl⟩ := h
  exact ⟨moments ++ others, rfl⟩

/-- The second piece of work starts with what the first one leaves. -/
theorem Leaves.bind (h : Leaves work array) (hnext : Leaves (next array) result) :
    Leaves (work >>= fun first => first.andThen next) result := by
  obtain ⟨moments, rfl⟩ := h
  exact hnext.after moments

theorem completes_conclude (moments : List Moment) (horder : array.Pairwise (· ≤ ·))
    (hperm : array.Perm input) (hsorted : sorted.Perm (List.range input.length)) :
    Completes (some ((Performance.mk moments array).conclude sorted description))
      description input :=
  ⟨moments, _, rfl, rfl, horder, hperm, hsorted⟩

theorem Completes.andThen (moments : List Moment)
    (hnext : Completes (next array) description input) :
    Completes ((Performance.mk moments array).andThen next) description input := by
  obtain ⟨others, last, hothers, hlast⟩ := hnext
  refine ⟨moments ++ others, last, ?_, hlast⟩
  simp [Performance.andThen, Performance.after, hothers]

/-- A sort goes on with what the work before it leaves. -/
theorem Completes.bind (h : Leaves work array) (hnext : Completes (next array) description input) :
    Completes (work >>= fun first => first.andThen next) description input := by
  obtain ⟨moments, rfl⟩ := h
  exact hnext.andThen moments

theorem Completes.perm (h : Completes work description input) (hperm : input.Perm input') :
    Completes work description input' := by
  obtain ⟨moments, last, hwork, hdescription, horder, hlast, hsorted⟩ := h
  exact ⟨moments, last, hwork, hdescription, horder, hlast.trans hperm,
    hperm.length_eq ▸ hsorted⟩

end Stepwise.Sorting
