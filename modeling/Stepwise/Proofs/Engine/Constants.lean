import Stepwise.Proofs.Engine.Step

/-!
# Constants

A constant keeps its binding until a line makes it anew: a declaration of its name, or the
header of a counting loop that declares its variable and names it so. Three kinds of lines
write variables, each with a check of its own; every other attempt to write a constant fails,
even with the value that the constant has.

## Main definitions

* `Stepwise.Engine.StepsOnto` — the line that the next step executes.
* `Stepwise.Line.ForHeader.Runs` — the header of a counting loop starts and ends at numbers.

## Main results

* `Stepwise.State.get?_after_of_isConstant` — what a line leaves of a constant.
* `Stepwise.Engine.Step.get?_of_isConstant` — what a step leaves of a constant.
* `Stepwise.Engine.get?_iterate_of_isConstant` — what a run leaves of a constant.
* `Stepwise.Engine.constant_protected` — how constants are protected.
-/

namespace Stepwise

open Expression (evaluate splitComparison)

/-! ### Lines that keep a constant -/

/-- A line that is executed keeps the binding of a constant, unless it makes it anew. -/
theorem State.get?_after_of_isConstant {state : State} {line : Line} {effect : Effect}
    {name : Text} (does : line.Does state.environment effect)
    (fixed : state.environment.isConstant name = true) (keeps : ¬ line.Redeclares name) :
    (state.after line.number effect).environment.get? name = state.environment.get? name := by
  rw [State.after_environment]
  have hother : ∀ other, (state.environment.isConstant other = false ∨ line.Redeclares other) →
      name ≠ other := by
    rintro other license rfl
    rcases license with hfree | hredeclares
    · rw [fixed] at hfree
      cases hfree
    · exact keeps hredeclares
  cases does with
  | pass passive =>
    cases effect with
    | print | note => rfl
    | assign | startLoop | meetLoop => cases passive
  | write _ _ license => exact Environment.get?_set_of_ne _ _ _ (hother _ license)
  | @start header _ license =>
    cases header with
    | none => rfl
    | some header => exact Environment.get?_set_of_ne _ _ _ (hother _ (license header rfl))
  | @meet header =>
    cases header with
    | none | some header => rfl

/-! ### Lines that fail on a constant -/

namespace Line

variable {env : Environment} {line : Line} {name : Text}

/-- An assignment to a constant fails, whatever its right-hand side is. -/
theorem Assigns.effect_eq (h : line.Assigns name) (fixed : env.isConstant name = true) :
    line.effect env = .error (.constReassignment name line.number) := by
  obtain ⟨right, hassigns⟩ := h.assigns
  obtain ⟨right', hcut⟩ := hassigns.exists_cut
  simp only [effect, h.kind, assignmentEffect, assignmentParts?_eq_some_iff.2 hcut]
  rw [if_pos fixed]

/-- The header of a counting loop starts at a number and ends at one. -/
structure ForHeader.Runs (env : Environment) (header : ForHeader) : Prop where
  /-- The start is a number. -/
  start : ∃ x, evaluate env header.start = .number x
  /-- The condition compares with a number. -/
  bound : ∃ left comparison right x,
    splitComparison header.condition = some (left, comparison, right) ∧
      evaluate env right = .number x

/-- The header of a counting loop on a constant fails if it declares nothing and starts and
ends at numbers. -/
theorem Counts.effect_eq {header : ForHeader} (h : line.Counts header)
    (undeclared : header.keyword = none) (runs : header.Runs env)
    (fixed : env.isConstant header.variableName = true) :
    line.effect env = .error (.constReassignment header.variableName line.number) := by
  obtain ⟨start, hstart⟩ := runs.start
  obtain ⟨left, comparison, right, bound, hsplit, hbound⟩ := runs.bound
  simp only [effect, h.kind, h.loopEffect_eq env, forEffect, hstart, hsplit, hbound, undeclared,
    Option.bind_some, Value.number?, Option.isNone_none, Bool.true_and]
  rw [if_pos fixed]

end Line

/-! ### Steps and runs -/

namespace Engine

/-- The next step is onto the line. -/
structure StepsOnto (engine : Engine) (line : Line) : Prop where
  /-- The run goes on. -/
  live : engine.state.status.isTerminal = false
  /-- The line is the next one. -/
  next : ∃ index, engine.next? = some (line, index)

variable {engine next : Engine} {line : Line} {name : Text}

/-- A step onto a line that fails ends the run. -/
theorem StepsOnto.status_advance {cause : StepError} (h : engine.StepsOnto line)
    (fails : line.effect engine.state.environment = .error cause) :
    engine.advance.state.status = .error := by
  obtain ⟨index, hnext⟩ := h.next
  rw [advance_of_next? h.live hnext]
  rcases State.effect_or_refuses engine.settings engine.state line with
    ⟨effect, _, hruns⟩ | ⟨cause, hrefused⟩
  · rw [fails] at hruns
    cases hruns
  · rw [State.step_of_refuses hrefused]
    rfl

/-- A step keeps the binding of a constant, unless it is onto a line that makes it anew. -/
theorem Step.get?_of_isConstant (hstep : engine.Step next)
    (fixed : engine.state.environment.isConstant name = true) :
    next.state.environment.get? name = engine.state.environment.get? name ∨
      ∃ line, engine.StepsOnto line ∧ line.Redeclares name := by
  cases hstep with
  | rest | finish | fail => exact .inl rfl
  | @execute line index effect live hnext _ runs =>
    by_cases hredeclares : line.Redeclares name
    · exact .inr ⟨line, ⟨live, index, hnext⟩, hredeclares⟩
    · exact .inl (State.get?_after_of_isConstant (Line.does_of_effect runs) fixed hredeclares)

/-- A run keeps the binding of a constant up to the first line that makes it anew. -/
theorem get?_iterate_of_isConstant (fixed : engine.state.environment.isConstant name = true)
    (n : Nat) :
    (advance^[n] engine).state.environment.get? name = engine.state.environment.get? name ∨
      ∃ i < n, ∃ line, (advance^[i] engine).StepsOnto line ∧ line.Redeclares name := by
  induction n with
  | zero => exact .inl rfl
  | succ n ih =>
    rcases ih with hkept | ⟨i, hi, hline⟩
    · have hfixed : (advance^[n] engine).state.environment.isConstant name = true := by
        rw [Environment.isConstant, hkept]
        exact fixed
      rw [Function.iterate_succ_apply']
      rcases (step_advance (advance^[n] engine)).get?_of_isConstant hfixed with hstep | hline
      · exact .inl (hstep.trans hkept)
      · exact .inr ⟨n, Nat.lt_succ_self n, hline⟩
    · exact .inr ⟨i, Nat.lt_succ_of_lt hi, hline⟩

/-- How a constant is protected. A step leaves its binding as it is, and so does a run of any
length, unless one of the steps is onto a declaration of the name or onto the header of a
counting loop that declares its variable and names it so. A step onto an assignment to the
name ends the run with an error, whatever the right-hand side is; and so does a step onto the
header of a counting loop that names it without declaring it and that starts and ends at
numbers. -/
theorem constant_protected (engine : Engine) (name : Text)
    (fixed : engine.state.environment.isConstant name = true) :
    (engine.advance.state.environment.get? name = engine.state.environment.get? name ∨
      ∃ line, engine.StepsOnto line ∧ line.Redeclares name) ∧
    (∀ n, (advance^[n] engine).state.environment.get? name = engine.state.environment.get? name ∨
      ∃ i < n, ∃ line, (advance^[i] engine).StepsOnto line ∧ line.Redeclares name) ∧
    ∀ line, engine.StepsOnto line →
      (line.Assigns name → engine.advance.state.status = .error) ∧
      ∀ header : Line.ForHeader, line.Counts header → header.keyword = none →
        header.variableName = name → header.Runs engine.state.environment →
          engine.advance.state.status = .error := by
  refine ⟨(step_advance engine).get?_of_isConstant fixed, get?_iterate_of_isConstant fixed, ?_⟩
  intro line honto
  constructor
  · intro hassigns
    exact honto.status_advance (hassigns.effect_eq fixed)
  · rintro header hcounts hundeclared rfl hruns
    exact honto.status_advance (hcounts.effect_eq hundeclared hruns fixed)

/-- The constant of this program is assigned the value that it has, and the one of the other
program is the variable of a loop. Both runs end there, with the binding as it was. -/
theorem constant_protected_rewritten :
    let assigned := ((new {}).load "const a = 1\na = 1".toList).advance
    let counted := ((new {}).load "const a = 1\nfor (a = 0; a < 2; a++)".toList).advance
    assigned.advance.state.status = .error ∧ counted.advance.state.status = .error ∧
      assigned.advance.state.environment.get? ['a'] = assigned.state.environment.get? ['a'] := by
  intro assigned counted
  let assignment : Line := ⟨2, .assignment, "a = 1".toList, 0⟩
  let header : Line := ⟨2, .loop, "for (a = 0; a < 2; a++)".toList, 0⟩
  have hassignment : assigned.StepsOnto assignment := ⟨by decide +kernel, 1, by decide +kernel⟩
  have hheader : counted.StepsOnto header := ⟨by decide +kernel, 1, by decide +kernel⟩
  obtain ⟨hkept, _, hassigned⟩ := constant_protected assigned ['a'] (by decide +kernel)
  obtain ⟨_, _, hcounted⟩ := constant_protected counted ['a'] (by decide +kernel)
  refine ⟨(hassigned assignment hassignment).1 ⟨rfl, " 1".toList, ?_⟩, ?_, ?_⟩
  · exact Line.assignmentParts?_eq_some_iff.1 (by decide)
  · have hcounts : header.Counts ⟨none, ['a'], " 0".toList, " a < 2".toList⟩ :=
      (Line.counts_iff rfl).2 (by decide)
    have hnumber : ∀ value : Value, value.number?.isSome = true → ∃ x, value = .number x := by
      intro value h
      cases value with
      | number x => exact ⟨x, rfl⟩
      | _ => cases h
    obtain ⟨bound, hbound⟩ :=
      hnumber (evaluate counted.state.environment " 2".toList) (by decide +kernel)
    exact (hcounted header hheader).2 _ hcounts rfl rfl ⟨hnumber _ (by decide +kernel),
      " a ".toList, .lt, " 2".toList, bound, by decide, hbound⟩
  · rcases hkept with hsame | ⟨line, honto, hredeclares⟩
    · exact hsame
    · obtain ⟨_, hnext⟩ := honto.next
      obtain ⟨_, hnext'⟩ := hassignment.next
      rw [hnext] at hnext'
      cases hnext'
      cases hredeclares with
      | declaration declares => cases declares.kind
      | header counts => cases counts.kind

end Engine

end Stepwise
