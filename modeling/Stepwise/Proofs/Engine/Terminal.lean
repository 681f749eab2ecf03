import Stepwise.Proofs.Engine.Coherence
import Stepwise.Proofs.Engine.Restart

/-!
# Before and after the end of a run

A run that has ended rests: whatever number of steps is asked for, each of them gives back the
snapshot of the step that ended the run, and the engine stays as it is. Until then the line that
the engine announces is the line that the next step executes. The announcement and the step find
the line separately, so that they have to be compared.

## Main definitions

* `Stepwise.Engine.Executes` — the next step executes the line with a given number.

## Main results

* `Stepwise.Engine.Reachable.entered` — a run ends by a step of an engine that was live.
* `Stepwise.Engine.serve_of_isTerminal` — what further steps give back.
* `Stepwise.Engine.nextLine?_eq_some_iff`, `Stepwise.Engine.nextLine?_eq_none_iff` — what the
  announced line says about the next step.
* `Stepwise.Engine.coherent_and_absorbing` — the stored snapshot, the end and the announced line.
-/

namespace Stepwise

/-- A step onto a line does not complete the run, whether it succeeds or fails. -/
theorem State.status_step_ne_complete (settings : EngineSettings) (state : State) (line : Line) :
    (state.step settings line).status ≠ .complete := by
  rcases effect_or_refuses settings state line with ⟨effect, hbelow, hruns⟩ | ⟨cause, hrefused⟩
  · rw [step_of_effect hbelow hruns, after_status]
    decide
  · rw [step_of_refuses hrefused, failed_status]
    decide

namespace Engine

variable {engine : Engine}

/-! ### After the end -/

/-- A run that has ended was ended by a step of an engine that was live before it. -/
theorem Reachable.entered (h : engine.Reachable) (ended : engine.status.isTerminal = true) :
    ∃ before : Engine, before.Reachable ∧ before.status.isTerminal = false ∧
      before.advance = engine := by
  induction h with
  | new | load | reset => cases ended
  | @advance engine hengine ih =>
    cases hlive : engine.status.isTerminal with
    | false => exact ⟨engine, hengine, hlive, rfl⟩
    | true =>
      obtain ⟨before, hbefore, hbeforeLive, hadvance⟩ := ih hlive
      refine ⟨before, hbefore, hbeforeLive, hadvance.trans ?_⟩
      exact (iterate_of_isTerminal hlive 1).symm

/-- After the end each step gives back the stored snapshot and leaves the engine alone. -/
theorem serve_of_isTerminal (ended : engine.status.isTerminal = true) (n : Nat) :
    engine.serve (List.replicate n .advance) = (engine, List.replicate n engine.last) := by
  have hadvance : engine.advance = engine := iterate_of_isTerminal ended 1
  induction n with
  | zero => rfl
  | succ n ih =>
    rw [List.replicate_succ, serve, answer, hadvance]
    simp only [ih]
    rfl

/-- When the run is complete, no loop is followed any more. -/
theorem Reachable.inactive_of_complete (h : engine.Reachable) : engine.status = .complete →
    ∀ tracker ∈ engine.state.loops.trackers, tracker.active = false := by
  refine Reachable.state_induction
    (P := fun state => state.status = .complete →
      ∀ tracker ∈ state.loops.trackers, tracker.active = false) ?_ ?_ ?_ ?_ h
  · intro frame hstatus
    cases hstatus
  · intro state line effect _ _ hstatus
    cases hstatus
  · intro state cause _ hstatus
    cases hstatus
  · intro state _ _ tracker hmem
    obtain ⟨followed, -, rfl⟩ := List.mem_map.1 hmem
    rfl

/-! ### Before the end -/

/-- The next step executes the line with the given number: it moves onto the line and leaves the
state that a step onto it leaves. -/
def Executes (engine : Engine) (number : Nat) : Prop :=
  ∃ (index : Nat) (line : Line), engine.lines[index]? = some line ∧ line.number = number ∧
    engine.advance.cursor = some index ∧
    engine.advance.state = engine.state.step engine.settings line

theorem getElem?_of_next? {line : Line} {index : Nat} (h : engine.next? = some (line, index)) :
    engine.lines[index]? = some line := by
  obtain ⟨passed, -, -, rfl, hdrop⟩ := drop_of_next? h
  rw [← List.getElem?_drop, hdrop, List.getElem?_append_right le_rfl, Nat.sub_self]
  rfl

theorem nextLine?_of_live (live : engine.status.isTerminal = false) :
    engine.nextLine? = engine.next?.map fun pair => pair.1.number :=
  if_neg (Bool.eq_false_iff.1 live)

/-- A live engine announces the line that the next step executes. -/
theorem nextLine?_eq_some_iff (live : engine.status.isTerminal = false) (number : Nat) :
    engine.nextLine? = some number ↔ engine.Executes number := by
  cases hnext : engine.next? with
  | none =>
    have hcomplete := advance_of_next?_eq_none live hnext
    rw [nextLine?_of_live live, hnext]
    constructor
    · intro h
      cases h
    · rintro ⟨index, line, -, -, -, hstate⟩
      have hstatus : engine.advance.state.status = .complete := by rw [hcomplete]; rfl
      exact absurd (hstate ▸ hstatus) (State.status_step_ne_complete _ _ _)
  | some pair =>
    obtain ⟨line, index⟩ := pair
    have hmoved := advance_of_next? live hnext
    have hline := getElem?_of_next? hnext
    rw [nextLine?_of_live live, hnext]
    constructor
    · intro h
      exact ⟨index, line, hline, Option.some.inj h, by rw [hmoved]; rfl, by rw [hmoved]; rfl⟩
    · rintro ⟨index', line', hline', rfl, hcursor, -⟩
      rw [hmoved] at hcursor
      obtain rfl : index = index' := Option.some.inj hcursor
      rw [Option.some.inj (hline.symm.trans hline')]
      rfl

/-- A live engine announces no line exactly if the next step completes the run. -/
theorem nextLine?_eq_none_iff (live : engine.status.isTerminal = false) :
    engine.nextLine? = none ↔ engine.advance.status = .complete := by
  rw [nextLine?_of_live live, Option.map_eq_none_iff]
  cases hnext : engine.next? with
  | none =>
    rw [advance_of_next?_eq_none live hnext]
    exact ⟨fun _ => rfl, fun _ => rfl⟩
  | some pair =>
    rw [advance_of_next? live hnext]
    constructor
    · intro h
      cases h
    · exact fun hstatus => absurd hstatus (State.status_step_ne_complete _ _ _)

/-! ### Whole runs -/

/-- The stored snapshot of a reachable engine and the one that its next step gives back are views
of the current state, up to the marks of change. Once the run has ended, by a step of an engine
that was live, any number of further steps each give back the snapshot that this step gave, and
leave the engine as it is; no line is announced, and after a complete run no tracker is active.
Before the end, the engine announces a line exactly if the next step executes it, and none
exactly if the next step completes the run. -/
theorem coherent_and_absorbing (reachable : engine.Reachable) :
    (engine.last.unmarked = engine.current ∧
      engine.advance.last.unmarked = engine.advance.current) ∧
    (engine.status.isTerminal = true →
      (∃ before : Engine, before.Reachable ∧ before.status.isTerminal = false ∧
        before.answer .advance = (engine, some engine.last)) ∧
      (∀ n, engine.serve (List.replicate n .advance) = (engine, List.replicate n engine.last)) ∧
      engine.nextLine? = none) ∧
    (engine.status = .complete → ∀ tracker ∈ engine.state.loops.trackers,
      tracker.active = false) ∧
    (engine.status.isTerminal = false →
      (∀ number, engine.nextLine? = some number ↔ engine.Executes number) ∧
      (engine.nextLine? = none ↔ engine.advance.status = .complete)) := by
  refine ⟨⟨reachable.unmarked_last, (Reachable.advance reachable).unmarked_last⟩, ?_,
    reachable.inactive_of_complete, ?_⟩
  · intro ended
    refine ⟨?_, serve_of_isTerminal ended, if_pos ended⟩
    obtain ⟨before, hbefore, hlive, rfl⟩ := reachable.entered ended
    exact ⟨before, hbefore, hlive, rfl⟩
  · exact fun live => ⟨nextLine?_eq_some_iff live, nextLine?_eq_none_iff live⟩

/-- The only line of one program opens a tracker, which the next step deactivates; the second line
of the other program is refused. -/
theorem coherent_and_absorbing_ended :
    let counted := ((new {}).load "for (let i = 0; i < 2; i++)".toList).advance
    let refused := ((new {}).load "const a = 1\na = 2".toList).advance.advance
    (counted.state.loops.trackers.map Loop.Tracker.active = [true] ∧
      counted.nextLine? = none ∧ counted.advance.status = .complete ∧
      ∀ tracker ∈ counted.advance.state.loops.trackers, tracker.active = false) ∧
    refused.status = .error ∧
      ∀ n, refused.serve (List.replicate n .advance) =
        (refused, List.replicate n refused.last) := by
  intro counted refused
  have hcounted : counted.Reachable := .advance (.load _ (.new _))
  obtain ⟨-, -, -, hbefore⟩ := coherent_and_absorbing hcounted
  obtain ⟨-, -, hinactive, -⟩ := coherent_and_absorbing hcounted.advance
  obtain ⟨-, hrests, -⟩ := coherent_and_absorbing (.advance (.advance (.load _ (.new _))))
  have hnone : counted.nextLine? = none := by decide +kernel
  have hcomplete := (hbefore (by decide +kernel)).2.1 hnone
  refine ⟨⟨by decide +kernel, hnone, hcomplete, hinactive hcomplete⟩, by decide +kernel, ?_⟩
  exact (hrests (by decide +kernel)).2.1

end Engine

end Stepwise
