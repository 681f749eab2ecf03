import Mathlib.Data.List.Basic
import Mathlib.Logic.Function.Iterate
import Mathlib.Tactic.Simps.Basic
import Stepwise.Engine.Basic
import Stepwise.Proofs.Line.Effect

/-!
# One step of the engine

A step of a live engine either executes the next line, or is refused on it, or finds no
line left and completes the run. This file says once what each of these does, so that
every invariant of runs is settled by four cases.

## Main definitions

* `Stepwise.State.after`, `Stepwise.State.failed` — a state after a step that succeeds,
  and after one that fails.
* `Stepwise.State.Refuses` — why a step onto a line fails.
* `Stepwise.Engine.Step` — the one-step relation.
* `Stepwise.Engine.Reachable` — the engines that loading, resetting and stepping lead to.

## Main results

* `Stepwise.State.perform_of_below`, `Stepwise.State.perform_of_refuses` — what the handler of a
  line leaves behind when it succeeds and when it fails.
* `Stepwise.Engine.step_advance` — `advance` is a step.
* `Stepwise.Engine.Reachable.state_induction` — induction over the reachable states.
-/

namespace Stepwise

/-! ### States after a step -/

namespace State

/-- The state after a line with the given number and effect was executed. -/
@[simps]
def after (state : State) (line : Nat) (effect : Effect) : State where
  environment := (state.apply line effect).environment
  loops := (state.apply line effect).loops
  callStack := state.callStack
  console := (state.apply line effect).console
  timeline := state.timeline.record line effect.entry.1 effect.entry.2
  status := .running
  error := state.error
  currentLine := line
  stepsTaken := state.stepsTaken + 1

/-- The state after a step that failed. -/
@[simps]
def failed (state : State) (cause : StepError) : State :=
  { state with currentLine := cause.line, error := some cause.report, status := .error }

/-- Why a step onto a line fails. The limit is looked at before the line is. -/
inductive Refuses (settings : EngineSettings) (state : State) (line : Line) : StepError → Prop
  /-- The run has taken all its steps. -/
  | limit {limit : Nat} (bounded : settings.maxSteps = some limit)
      (reached : limit ≤ state.stepsTaken) :
      Refuses settings state line (.stepLimitExceeded limit line.number)
  /-- The line writes a constant. -/
  | constant {name : Text} (below : ∀ limit ∈ settings.maxSteps, state.stepsTaken < limit)
      (kind : line.kind = .assignment ∨ line.kind = .loop)
      (fixed : state.environment.isConstant name = true)
      (fails : line.effect state.environment = .error (.constReassignment name line.number)) :
      Refuses settings state line (.constReassignment name line.number)

variable {settings : EngineSettings} {state : State} {line : Line}

theorem Refuses.line_eq {cause : StepError} (h : state.Refuses settings line cause) :
    cause.line = line.number := by
  cases h <;> rfl

/-- An effect writes variables, trackers and the console, and is recorded once. -/
theorem after_eq_apply (line : Nat) (effect : Effect) :
    state.after line effect =
      let next := { state with currentLine := line }.apply line effect
      { next with status := .running, stepsTaken := next.stepsTaken + 1 } := by
  -- Both sides compute as soon as it is known which effect it is and whether it has a header.
  match effect with
  | .assign .. | .startLoop (some _) | .startLoop none | .meetLoop (some _) _
  | .meetLoop none _ | .print _ | .note .. => rfl

/-- Below the limit the handler of the line decides. -/
theorem perform_of_below (below : ∀ limit ∈ settings.maxSteps, state.stepsTaken < limit) :
    state.perform settings line =
      { state with currentLine := line.number }.outcome line.number
        (line.effect state.environment) := by
  have hrun : (line.stepOnto settings).run state =
      line.execute.run { state with currentLine := line.number } := by
    unfold Line.stepOnto
    cases hmax : settings.maxSteps with
    | none => rfl
    | some limit =>
      have hbelow : ¬ limit ≤ state.stepsTaken := Nat.not_le.2 (below limit hmax)
      simp only [Handler.run_modify, Handler.run_get, hbelow, if_false]
  exact hrun.trans (line.run_execute _)

theorem perform_congr {line' : Line} (hnumber : line'.number = line.number)
    (heffect : ∀ env, line'.effect env = line.effect env) :
    state.perform settings line' = state.perform settings line := by
  rw [perform, perform, Line.stepOnto, Line.stepOnto, Line.execute_congr hnumber heffect, hnumber]

/-- At the limit the handler of the line is not reached. -/
theorem perform_of_limit {limit : Nat} (bounded : settings.maxSteps = some limit)
    (reached : limit ≤ state.stepsTaken) :
    state.perform settings line = .error (.stepLimitExceeded limit line.number)
      { state with currentLine := line.number } := by
  unfold perform Line.stepOnto
  rw [bounded]
  simp only [Handler.run_modify, Handler.run_get, reached, if_true]
  rfl

/-- A refused line leaves the state as it was, but for the current line. -/
theorem perform_of_refuses {cause : StepError} (h : state.Refuses settings line cause) :
    state.perform settings line = .error cause { state with currentLine := line.number } := by
  cases h with
  | limit bounded reached => exact perform_of_limit bounded reached
  | constant below _ _ fails => rw [perform_of_below below, fails, outcome]

theorem step_of_effect {effect : Effect}
    (below : ∀ limit ∈ settings.maxSteps, state.stepsTaken < limit)
    (runs : line.effect state.environment = .ok effect) :
    state.step settings line = state.after line.number effect := by
  rw [after_eq_apply, step, perform_of_below below, runs]
  rfl

theorem step_of_refuses {cause : StepError} (h : state.Refuses settings line cause) :
    state.step settings line = state.failed cause := by
  rw [step, perform_of_refuses h, failed, h.line_eq]

/-- A step onto a line has an effect or is refused. -/
theorem effect_or_refuses (settings : EngineSettings) (state : State) (line : Line) :
    (∃ effect, (∀ limit ∈ settings.maxSteps, state.stepsTaken < limit) ∧
        line.effect state.environment = .ok effect) ∨
      ∃ cause, state.Refuses settings line cause := by
  -- The limit decides first; only below it does the line matter.
  by_cases below : ∀ limit ∈ settings.maxSteps, state.stepsTaken < limit
  · cases heffect : line.effect state.environment with
    | ok effect => exact .inl ⟨effect, below, rfl⟩
    | error cause =>
      obtain ⟨hkind, name, hconstant, rfl⟩ := Line.effect_error heffect
      exact .inr ⟨_, .constant below hkind hconstant heffect⟩
  · obtain ⟨limit, hlimit⟩ := not_forall.1 below
    obtain ⟨hbounded, hreached⟩ := Classical.not_imp.1 hlimit
    exact .inr ⟨_, .limit hbounded (Nat.not_lt.1 hreached)⟩

end State

namespace Engine

/-! ### The next line -/

/-- The executable lines that the run has not reached. -/
def remaining (engine : Engine) : List Line :=
  (engine.lines.drop engine.nextIndex).filter Line.isExecutable

variable {engine : Engine} {line : Line} {index : Nat}

/-- The next line splits the lines not reached at its index. -/
theorem drop_of_next? (h : engine.next? = some (line, index)) :
    ∃ passed : List Line, (∀ other ∈ passed, other.isExecutable = false) ∧
      line.isExecutable = true ∧ index = engine.nextIndex + passed.length ∧
      engine.lines.drop engine.nextIndex = passed ++ line :: engine.lines.drop (index + 1) := by
  unfold next? at h
  rw [List.find?_eq_some_iff_append] at h
  obtain ⟨hline, before, behind, hsplit, hbefore⟩ := h
  have hindex : index = engine.nextIndex + before.length := by
    have hget :
        (engine.lines.zipIdx.drop engine.nextIndex)[before.length]? = some (line, index) := by
      rw [hsplit, List.getElem?_append_right (Nat.le_refl _), Nat.sub_self]
      rfl
    rw [List.getElem?_drop, List.getElem?_zipIdx] at hget
    obtain ⟨_, _, heq⟩ := Option.map_eq_some_iff.1 hget
    have := congrArg Prod.snd heq
    simpa using this.symm
  have hlines : engine.lines.drop engine.nextIndex =
      before.map Prod.fst ++ line :: behind.map Prod.fst := by
    have := congrArg (List.map Prod.fst) hsplit
    simpa [List.map_drop] using this
  refine ⟨before.map Prod.fst, ?_, hline, by simpa using hindex, ?_⟩
  · intro other hother
    obtain ⟨pair, hpair, rfl⟩ := List.mem_map.1 hother
    simpa using hbefore pair hpair
  · have hbehind : engine.lines.drop (index + 1) = behind.map Prod.fst := by
      have := congrArg (List.drop (before.length + 1)) hlines
      rw [List.drop_drop] at this
      rw [hindex, Nat.add_assoc, this]
      simp [List.drop_append]
    rw [hlines, hbehind]

/-- The next line is the first of those not reached, and the others come after it. -/
theorem remaining_of_next? (h : engine.next? = some (line, index)) :
    engine.remaining = line :: (engine.lines.drop (index + 1)).filter Line.isExecutable := by
  obtain ⟨passed, hpassed, hline, _, hdrop⟩ := drop_of_next? h
  have hskip : passed.filter Line.isExecutable = [] := by
    rw [List.filter_eq_nil_iff]
    intro other hother
    simp [hpassed other hother]
  rw [remaining, hdrop, List.filter_append, hskip, List.nil_append, List.filter_cons, if_pos hline]

theorem remaining_of_next?_eq_none (h : engine.next? = none) : engine.remaining = [] := by
  rw [next?, List.find?_eq_none] at h
  rw [remaining, List.filter_eq_nil_iff]
  intro line hline
  have hmem : line ∈ (engine.lines.zipIdx.drop engine.nextIndex).map Prod.fst := by
    rwa [List.map_drop, List.zipIdx_map_fst]
  obtain ⟨pair, hpair, rfl⟩ := List.mem_map.1 hmem
  exact h pair hpair

/-! ### The one-step relation -/

/-- The engine after a step onto the line with the given index. -/
@[simps]
def moveTo (engine : Engine) (index : Nat) (state : State) : Engine :=
  { engine with
    cursor := some index
    state
    last := .capture state (some engine.state.environment) }

/-- The engine after the end of the program. -/
@[simps]
def complete (engine : Engine) : Engine :=
  { engine with state := engine.state.finish, last := .capture engine.state.finish none }

/-- What a step can do. -/
inductive Step (engine : Engine) : Engine → Prop
  /-- After the end of the run nothing happens. -/
  | rest (ended : engine.state.status.isTerminal = true) : Step engine engine
  /-- After the last line the run is complete. -/
  | finish (live : engine.state.status.isTerminal = false) (done : engine.next? = none) :
      Step engine engine.complete
  /-- The next line is executed. -/
  | execute {line : Line} {index : Nat} {effect : Effect}
      (live : engine.state.status.isTerminal = false) (next : engine.next? = some (line, index))
      (below : ∀ limit ∈ engine.settings.maxSteps, engine.state.stepsTaken < limit)
      (runs : line.effect engine.state.environment = .ok effect) :
      Step engine (engine.moveTo index (engine.state.after line.number effect))
  /-- The step onto the next line is refused. -/
  | fail {line : Line} {index : Nat} {cause : StepError}
      (live : engine.state.status.isTerminal = false) (next : engine.next? = some (line, index))
      (refused : engine.state.Refuses engine.settings line cause) :
      Step engine (engine.moveTo index (engine.state.failed cause))

theorem advance_of_next? (live : engine.state.status.isTerminal = false)
    (hnext : engine.next? = some (line, index)) :
    engine.advance = engine.moveTo index (engine.state.step engine.settings line) := by
  simp [advance, live, hnext, moveTo]

theorem advance_of_next?_eq_none (live : engine.state.status.isTerminal = false)
    (hnext : engine.next? = none) : engine.advance = engine.complete := by
  simp [advance, live, hnext, complete]

/-- `advance` is a step. -/
theorem step_advance (engine : Engine) : engine.Step engine.advance := by
  cases hended : engine.state.status.isTerminal with
  | true =>
    rw [advance, if_pos hended]
    exact .rest hended
  | false =>
    cases hnext : engine.next? with
    | none =>
      rw [advance_of_next?_eq_none hended hnext]
      exact .finish hended hnext
    | some pair =>
      obtain ⟨line, index⟩ := pair
      rw [advance_of_next? hended hnext]
      rcases State.effect_or_refuses engine.settings engine.state line with
        ⟨effect, hbelow, hruns⟩ | ⟨cause, hrefused⟩
      · rw [State.step_of_effect hbelow hruns]
        exact .execute hended hnext hbelow hruns
      · rw [State.step_of_refuses hrefused]
        exact .fail hended hnext hrefused

theorem Step.program_eq {next : Engine} (h : engine.Step next) :
    next.settings = engine.settings ∧ next.source = engine.source ∧ next.lines = engine.lines := by
  cases h <;> exact ⟨rfl, rfl, rfl⟩

theorem program_iterate (engine : Engine) (n : Nat) :
    (advance^[n] engine).settings = engine.settings ∧
      (advance^[n] engine).source = engine.source ∧
      (advance^[n] engine).lines = engine.lines := by
  induction n with
  | zero => exact ⟨rfl, rfl, rfl⟩
  | succ n ih =>
    rw [Function.iterate_succ_apply']
    obtain ⟨hsettings, hsource, hlines⟩ := (step_advance (advance^[n] engine)).program_eq
    exact ⟨hsettings.trans ih.1, hsource.trans ih.2.1, hlines.trans ih.2.2⟩

theorem iterate_of_isTerminal (ended : engine.state.status.isTerminal = true) (n : Nat) :
    advance^[n] engine = engine := by
  refine Function.iterate_fixed ?_ n
  rw [advance, if_pos ended]

/-! ### Reachable engines -/

/-- The engines that loading, resetting and stepping lead to. -/
inductive Reachable : Engine → Prop
  /-- An engine without a program. -/
  | new (settings : EngineSettings) : Reachable (new settings)
  | load {engine : Engine} (source : Text) : Reachable engine → Reachable (engine.load source)
  | reset {engine : Engine} : Reachable engine → Reachable engine.reset
  | advance {engine : Engine} : Reachable engine → Reachable engine.advance

/-- What holds of every fresh state, and is kept by executing a line, by failing and by
finishing, holds of every reachable state. -/
theorem Reachable.state_induction {P : State → Prop} (initial : ∀ frame, P (State.initial frame))
    (after : ∀ state (line : Line) effect, line.effect state.environment = .ok effect → P state →
      P (state.after line.number effect))
    (failed : ∀ state cause, P state → P (state.failed cause))
    (finish : ∀ state, P state → P state.finish)
    (h : engine.Reachable) : P engine.state := by
  -- Loading and resetting forget the state, so only `advance` needs the hypothesis.
  induction h with
  | new settings => exact initial _
  | load source _ _ => exact initial _
  | reset _ _ => exact initial _
  | @advance engine _ ih =>
    have hstep := step_advance engine
    generalize engine.advance = next at hstep
    cases hstep with
    | rest => exact ih
    | finish => exact finish _ ih
    | execute _ _ _ runs => exact after _ _ _ runs ih
    | fail => exact failed _ _ ih

end Engine

end Stepwise
