import Stepwise.Proofs.Engine.Step

/-!
# The stored snapshot

An engine stores the snapshot of its last step beside the state that the step left behind.
The two are written in different places, so that one could go stale without the other. This
file shows that the stored snapshot is always a view of the current state: it differs from a
view taken now in the marks of change only.

## Main definitions

* `Stepwise.Snapshot.unmarked` — a snapshot without its marks of change.
* `Stepwise.Engine.Shows` — the snapshots that an engine gives out.

## Main results

* `Stepwise.Snapshot.unmarked_capture` — apart from its marks, a snapshot depends on the state
  alone.
* `Stepwise.Engine.Reachable.unmarked_last` — the stored snapshot is a view of the state.
-/

namespace Stepwise

namespace Snapshot

/-- The snapshot without its marks of change. -/
def unmarked (snapshot : Snapshot) : Snapshot :=
  { snapshot with bindings := snapshot.bindings.map fun view => { view with changed := false } }

/-- Apart from its marks, a snapshot depends on the state alone. -/
@[simp] theorem unmarked_capture (state : State) (previous : Option Environment) :
    (capture state previous).unmarked = capture state none := by
  simp [unmarked, capture, Function.comp_def]

end Snapshot

namespace Engine

variable {engine next : Engine}

/-- A step stores a view of the state that it leaves behind. -/
theorem Step.unmarked_last (hstep : engine.Step next)
    (h : engine.last.unmarked = engine.current) : next.last.unmarked = next.current := by
  cases hstep with
  | rest => exact h
  | finish | execute | fail => exact Snapshot.unmarked_capture _ _

/-- The stored snapshot of a reachable engine is a view of its state. -/
theorem Reachable.unmarked_last (h : engine.Reachable) :
    engine.last.unmarked = engine.current := by
  induction h with
  | new | load | reset => exact Snapshot.unmarked_capture _ none
  | @advance engine _ ih => exact (step_advance engine).unmarked_last ih

theorem reachable_load (engine : Engine) (source : Text) : (engine.load source).Reachable := by
  change ((new engine.settings).load source).Reachable
  exact .load source (.new engine.settings)

theorem reachable_iterate (h : engine.Reachable) (n : Nat) : (advance^[n] engine).Reachable := by
  induction n with
  | zero => exact h
  | succ n ih =>
    rw [Function.iterate_succ_apply']
    exact .advance ih

/-- The snapshots that an engine gives out: the stored one, and a view taken now. -/
def Shows (engine : Engine) (snapshot : Snapshot) : Prop :=
  snapshot = engine.last ∨ snapshot = engine.current

theorem Reachable.unmarked_of_shows (h : engine.Reachable) {snapshot : Snapshot}
    (hshows : engine.Shows snapshot) : snapshot.unmarked = engine.current := by
  rcases hshows with rfl | rfl
  · exact h.unmarked_last
  · exact Snapshot.unmarked_capture _ none

end Engine

end Stepwise
