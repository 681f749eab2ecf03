import Stepwise.Proofs.Engine.Step

/-!
# Failing steps

The handlers of lines write a state as they go, and a handler that fails leaves behind what it
has written. This file shows that this is nothing: every cause of failure is found before the
first write, so a failing step changes nothing that the program has computed. What it leaves
behind is the report.

## Main results

* `Stepwise.Engine.Reachable.proper` — the variables of a reachable engine are proper.
* `Stepwise.Engine.advance_of_failure` — what a failing step leaves behind.
-/

namespace Stepwise

/-! ### Reachable variables -/

/-- Executing a line keeps the environment proper. -/
theorem State.proper_after {state : State} {line : Line} {effect : Effect}
    (h : state.environment.Proper) (does : line.Does state.environment effect) :
    (state.after line.number effect).environment.Proper := by
  rw [State.after_environment]
  cases does with
  | pass passive =>
    cases effect with
    | print | note => exact h
    | assign | startLoop | meetLoop => cases passive
  | write _ origin =>
    refine h.set _ _ ?_
    rcases origin with rfl | ⟨text, rfl⟩
    · rfl
    · exact Expression.evaluate_sameAs_self h text
  | @start header =>
    cases header with
    | none => exact h
    | some header => exact h.set _ _ (Value.sameAs_self nofun)
  | @meet header =>
    cases header with
    | none | some header => exact h

/-- The variables of a reachable engine are proper. -/
theorem Engine.Reachable.proper {engine : Engine} (h : engine.Reachable) :
    engine.state.environment.Proper := by
  refine h.state_induction (P := fun state => state.environment.Proper) ?_ ?_ ?_ ?_
  · exact fun _ => Environment.proper_empty
  · exact fun state line effect heffect hproper =>
      State.proper_after hproper (Line.does_of_effect heffect)
  · exact fun _ _ hproper => hproper
  · exact fun _ hproper => hproper

/-! ### Marks of change -/

theorem Snapshot.differs_self {env : Environment} (h : env.Proper) {binding : Binding}
    (hmem : binding ∈ env.bindings) : differs env binding = false := by
  rw [differs, h.valueOf?_eq hmem]
  simp [h.same binding hmem]

theorem Snapshot.changed_capture_self {state : State} {env : Environment} (h : env.Proper)
    (henv : state.environment = env) :
    ∀ view ∈ (capture state (some env)).bindings, view.changed = false := by
  intro view hview
  obtain ⟨binding, hmem, rfl⟩ := List.mem_map.1 hview
  exact differs_self h (henv ▸ hmem)

/-! ### Atomicity -/

namespace Engine

/-- A failing step leaves everything but the place, the report and the stage as it was. It
fails on the next line, because the run has taken all its steps or because the line writes a
constant; the handler leaves the state behind that it was given, with the line as the current
one, and the report names that line. On a reachable engine the snapshot of the step marks no
variable as changed. -/
theorem advance_of_failure (engine : Engine) (live : engine.state.status.isTerminal = false)
    (fails : engine.advance.state.status = .error) :
    ∃ line index cause, engine.next? = some (line, index) ∧
      engine.state.Refuses engine.settings line cause ∧
      engine.state.perform engine.settings line =
        .error cause { engine.state with currentLine := line.number } ∧
      engine.advance =
        { engine with
          cursor := some index
          state :=
            { engine.state with
              currentLine := line.number
              error := some ("Error at line ".toList ++ Text.ofNat line.number ++ ": ".toList ++
                cause.message)
              status := .error }
          last := engine.advance.last } ∧
      (engine.Reachable → ∀ view ∈ engine.advance.last.bindings, view.changed = false) := by
  have hstep := step_advance engine
  generalize engine.advance = next at *
  -- Of the four things a step can do, only being refused leaves the stage `error`.
  cases hstep with
  | rest ended => rw [live] at ended; cases ended
  | finish => cases fails
  | execute => cases fails
  | @fail line index cause _ hnext refused =>
    refine ⟨line, index, cause, hnext, refused, State.perform_of_refuses refused, ?_, ?_⟩
    · rw [← refused.line_eq]
      rfl
    · exact fun reachable => Snapshot.changed_capture_self reachable.proper rfl

/-- The second line of this program is the header of a loop that would count with the constant
of the first one. -/
theorem advance_of_failure_constant :
    let engine := ((new {}).load "const a = 1\nfor (a = 0; a < 2; a++)".toList).advance
    engine.advance.state.environment = engine.state.environment ∧
      engine.advance.state.loops = engine.state.loops ∧
      engine.advance.state.timeline = engine.state.timeline ∧
      engine.advance.state.error =
        some "Error at line 2: Assignment to constant variable 'a'".toList ∧
      ∀ view ∈ engine.advance.last.bindings, view.changed = false := by
  intro engine
  obtain ⟨line, index, cause, _, _, _, hadvance, hmarks⟩ :=
    advance_of_failure engine (by decide +kernel) (by decide +kernel)
  refine ⟨?_, ?_, ?_, by decide +kernel, hmarks (.advance (.load _ (.new _)))⟩
  all_goals rw [hadvance]

end Engine

end Stepwise
