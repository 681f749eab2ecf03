import Mathlib.Data.List.Nodup
import Stepwise.Proofs.Engine.Failure

/-!
# One write for each step

A step writes at most one variable, and only a declaration, an assignment or a loop header
writes at all. The marks of change are not kept along with the write: they come from a
comparison of all variables with those before the step. This file shows that the comparison
finds the write and nothing else.

## Main definitions

* `Stepwise.Environment.Written` — an environment and what one write at most makes of it.

## Main results

* `Stepwise.Engine.Step.written` — a step writes at most one variable.
* `Stepwise.Engine.advance_written` — what a step writes and what its snapshot marks.
-/

namespace Stepwise

/-! ### One write -/

/-- The second environment is the first one, or comes from it by writing one name. -/
inductive Environment.Written (env : Environment) : Environment → Prop
  | same : Written env env
  | set (name : Text) (value : Value) (constant : Bool) : Written env (env.set name value constant)

namespace Environment.Written

variable {env next : Environment}

/-- A write keeps the names in their order and adds at most one, at the end. -/
theorem names (h : env.Written next) :
    env.names <+: next.names ∧ next.names.length ≤ env.names.length + 1 := by
  cases h with
  | same => exact ⟨List.prefix_rfl, Nat.le_succ _⟩
  | set name value constant =>
    rw [names_set]
    split
    · exact ⟨List.prefix_rfl, Nat.le_succ _⟩
    · exact ⟨List.prefix_append _ _, by simp⟩

/-- At most one variable differs from what it was before a write. -/
theorem countP_differs_le (h : env.Written next) (proper : env.Proper) :
    next.bindings.countP (Snapshot.differs env) ≤ 1 := by
  cases h with
  | same =>
    have hnone : env.bindings.countP (Snapshot.differs env) = 0 := by
      rw [List.countP_eq_zero]
      intro binding hmem
      simp [Snapshot.differs_self proper hmem]
    omega
  | set name value constant =>
    -- A binding that was there before does not differ, so only the written one can.
    have hname : ∀ binding ∈ (env.set name value constant).bindings,
        Snapshot.differs env binding = true → (binding.name == name) = true := by
      intro binding hmem hdiffers
      obtain ⟨entry, hentry, rfl⟩ := List.mem_map.1 hmem
      rcases mem_of_mem_set hentry with rfl | hold
      · exact beq_self_eq_true name
      · rw [Snapshot.differs_self proper (List.mem_map_of_mem hold)] at hdiffers
        cases hdiffers
    have hnodup := nodup_names_set proper.nodup name value constant
    calc (env.set name value constant).bindings.countP (Snapshot.differs env)
        ≤ (env.set name value constant).bindings.countP fun binding => binding.name == name :=
          List.countP_mono_left hname
      _ = (env.set name value constant).names.count name := by
          rw [← (proper.agrees.set name value constant).map_name_bindings, List.count,
            List.countP_map]
          rfl
      _ ≤ 1 := List.nodup_iff_count_le_one.1 hnodup name

end Environment.Written

/-! ### Steps -/

/-- A line that is executed writes at most one variable, and none unless it is a declaration,
an assignment or a loop header. -/
theorem State.written_after {state : State} {line : Line} {effect : Effect}
    (does : line.Does state.environment effect) :
    state.environment.Written (state.after line.number effect).environment ∧
      (line.kind ∉ [.declaration, .assignment, .loop] →
        (state.after line.number effect).environment = state.environment) := by
  rw [State.after_environment]
  cases does with
  | pass passive =>
    cases effect with
    | print | note => exact ⟨.same, fun _ => rfl⟩
    | assign | startLoop | meetLoop => cases passive
  | write kind =>
    refine ⟨.set _ _ _, fun hquiet => ?_⟩
    rcases kind with kind | kind <;> simp [kind] at hquiet
  | @start header kind =>
    cases header with
    | none => exact ⟨.same, fun _ => rfl⟩
    | some header =>
      refine ⟨.set _ _ _, fun hquiet => ?_⟩
      simp [kind] at hquiet
  | @meet header =>
    cases header with
    | none | some header => exact ⟨.same, fun _ => rfl⟩

namespace Engine

variable {engine next : Engine}

/-- A step writes at most one variable. -/
theorem Step.written (h : engine.Step next) :
    engine.state.environment.Written next.state.environment := by
  cases h with
  | rest | finish | fail => exact .same
  | execute _ _ _ runs => exact (State.written_after (Line.does_of_effect runs)).1

/-- A step that is not onto a declaration, an assignment or a loop header leaves the variables
alone. -/
theorem Step.environment_eq (h : engine.Step next)
    (quiet : ∀ line index, engine.next? = some (line, index) →
      line.kind ∉ [.declaration, .assignment, .loop]) :
    next.state.environment = engine.state.environment := by
  cases h with
  | rest | finish | fail => rfl
  | execute _ hnext _ runs =>
    exact (State.written_after (Line.does_of_effect runs)).2 (quiet _ _ hnext)

end Engine

/-! ### Marks of change -/

namespace Snapshot

/-- A binding differs from the environment before exactly when its name was unbound there or
had another value. -/
theorem differs_iff (previous : Environment) (binding : Binding) :
    differs previous binding = true ↔
      previous.valueOf? binding.name = none ∨
        ∃ old, previous.valueOf? binding.name = some old ∧ ¬ old.Same binding.value := by
  rw [differs]
  cases hold : previous.valueOf? binding.name with
  | none => simp
  | some old => simp [← Value.sameAs_iff]

theorem map_bindings_capture (state : State) (previous : Option Environment) :
    (capture state previous).bindings.map (fun view => (view.name, view.value)) =
      state.environment.bindings.map fun binding => (binding.name, binding.value) := by
  simp [capture]

theorem countP_changed_capture (state : State) (previous : Environment) :
    (capture state (some previous)).bindings.countP BindingView.changed =
      state.environment.bindings.countP (differs previous) := by
  rw [capture, List.countP_map]
  rfl

end Snapshot

namespace Engine

/-- The snapshot of a live step shows the state after it. A step onto a line compares with the
variables before it. -/
theorem last_advance {engine : Engine} (live : engine.state.status.isTerminal = false) :
    engine.advance.last =
      .capture engine.advance.state (engine.next?.map fun _ => engine.state.environment) := by
  cases hnext : engine.next? with
  | none =>
    rw [advance_of_next?_eq_none live hnext]
    rfl
  | some pair =>
    rw [advance_of_next? live hnext]
    rfl

/-- A step of a live, reachable engine writes at most one variable, so the names stay in their
order and at most one is added, at the end. The snapshot shows the variables after the step.
If the step is onto a line, a variable is marked exactly when it was unbound before or had
another value; at most one variable is marked, and none unless the line is a declaration, an
assignment or a loop header. The step that completes the run marks none. -/
theorem advance_written (engine : Engine) (reachable : engine.Reachable)
    (live : engine.state.status.isTerminal = false) :
    let before := engine.state.environment
    let after := engine.advance.state.environment
    let shown := engine.advance.last.bindings
    before.Written after ∧
      before.names <+: after.names ∧ after.names.length ≤ before.names.length + 1 ∧
      shown.map (fun view => (view.name, view.value)) =
        after.bindings.map (fun binding => (binding.name, binding.value)) ∧
      (∀ line index, engine.next? = some (line, index) →
        (∀ view ∈ shown, view.changed = true ↔
          before.valueOf? view.name = none ∨
            ∃ old, before.valueOf? view.name = some old ∧ ¬ old.Same view.value) ∧
        shown.countP BindingView.changed ≤ 1 ∧
        (line.kind ∉ [.declaration, .assignment, .loop] →
          after = before ∧ ∀ view ∈ shown, view.changed = false)) ∧
      (engine.next? = none → after = before ∧ ∀ view ∈ shown, view.changed = false) := by
  intro before after shown
  have hstep := step_advance engine
  have hwritten : before.Written after := hstep.written
  have hshown : shown = (Snapshot.capture engine.advance.state
      (engine.next?.map fun _ => before)).bindings :=
    congrArg Snapshot.bindings (last_advance live)
  refine ⟨hwritten, hwritten.names.1, hwritten.names.2, ?_, ?_, ?_⟩
  · rw [hshown]
    exact Snapshot.map_bindings_capture _ _
  · intro line index hnext
    rw [hnext, Option.map_some] at hshown
    rw [hshown]
    refine ⟨?_, ?_, ?_⟩
    · intro view hview
      obtain ⟨binding, _, rfl⟩ := List.mem_map.1 hview
      exact Snapshot.differs_iff before binding
    · rw [Snapshot.countP_changed_capture]
      exact hwritten.countP_differs_le reachable.proper
    · intro hkind
      have hsame : after = before := hstep.environment_eq (by
        intro other place hother
        rw [hnext] at hother
        cases hother
        exact hkind)
      exact ⟨hsame, Snapshot.changed_capture_self reachable.proper hsame⟩
  · intro hdone
    rw [hdone, Option.map_none] at hshown
    rw [hshown]
    refine ⟨hstep.environment_eq (by simp [hdone]), ?_⟩
    intro view hview
    obtain ⟨binding, _, rfl⟩ := List.mem_map.1 hview
    rfl

/-- The second line of this program writes `NaN` over `NaN`, which is no change. -/
theorem advance_written_nan :
    let engine := ((new {}).load "let a = 0 / 0\na = 0 / 0".toList).advance
    engine.state.environment.Written engine.advance.state.environment ∧
      engine.advance.last.bindings.countP BindingView.changed = 0 ∧
      ∀ view ∈ engine.advance.last.bindings, ∃ old,
        engine.state.environment.valueOf? view.name = some old ∧ old.Same view.value := by
  intro engine
  obtain ⟨⟨line, index⟩, hnext⟩ := Option.isSome_iff_exists.1
    (show engine.next?.isSome = true by decide)
  obtain ⟨hwritten, _, _, _, hline, _⟩ :=
    advance_written engine (.advance (.load _ (.new _))) (by decide +kernel)
  have hcount : engine.advance.last.bindings.countP BindingView.changed = 0 := by decide +kernel
  refine ⟨hwritten, hcount, ?_⟩
  intro view hview
  have hunmarked := List.countP_eq_zero.1 hcount view hview
  obtain ⟨hbound, hsame⟩ := not_or.1 (mt ((hline line index hnext).1 view hview).2 hunmarked)
  obtain ⟨old, hold⟩ := Option.ne_none_iff_exists'.1 hbound
  exact ⟨old, hold, not_not.1 fun hdiffers => hsame ⟨old, hold, hdiffers⟩⟩

end Engine

end Stepwise
