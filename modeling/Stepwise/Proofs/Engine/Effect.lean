import Stepwise.Engine.Handlers

/-!
# The effect of a line

A handler changes a state part by part and can fail on the way. This file says in one piece
what comes of it. Which effect a line has, or why it fails, depends only on the line and on the
variables; applying an effect adds exactly one entry to the timeline and writes at most one
variable. A handler that fails has changed nothing by then.

## Main definitions

* `Stepwise.Effect` — what a line does.
* `Stepwise.Line.effect` — the effect of a line, or why it fails.
* `Stepwise.State.apply` — a state after an effect.

## Main results

* `Stepwise.Line.run_execute` — the handler of a line applies its effect, or fails and leaves
  the state as it was.
-/

namespace Stepwise

/-- A loop that a header describes. -/
structure Effect.Header where
  /-- The controlling variable. -/
  variableName : Text
  /-- The number with which the loop starts. -/
  current : Float
  /-- The number at which the loop ends. -/
  bound : Float

/-- What a line does. -/
inductive Effect where
  /-- Writes a variable and feeds the trackers that follow it. -/
  | assign (name : Text) (value : Value) (constant : Bool) (description : Text)
  /-- Starts a counting loop: sets its variable and opens a tracker. A header that
  does not start with numbers is only recorded. -/
  | startLoop (header : Option Effect.Header)
  /-- Meets the condition of a loop, and opens a tracker if it compares a variable
  with a number. -/
  | meetLoop (header : Option Effect.Header) (taken : Bool)
  /-- Prints a line. -/
  | print (text : Text)
  /-- Only records what happened. -/
  | note (kind : Timeline.Kind) (description : Text)

namespace Line

open Expression (evaluate splitComparison)
open Text (afterKeyword cutStatement firstParenGroup splitTopLevel)

/-! ### Statements -/

/-- The effect of a line that nothing is known about. -/
def otherEffect (line : Line) : Effect :=
  .note .other ("Line ".toList ++ Text.ofNat line.number)

/-- A declaration writes the declared name, constant or not as its keyword says. -/
def declarationEffect (env : Environment) (line : Line) : Effect :=
  match declarationKeyword? (cutStatement line.text) with
  | none => line.otherEffect
  | some (keyword, rest) =>
    match declared? env rest.trim with
    | none => line.otherEffect
    | some (name, value) =>
      .assign name value (keyword == .const_)
        ("Set ".toList ++ name ++ " = ".toList ++ value.repr)

/-- An assignment writes its name, unless that is a constant. -/
def assignmentEffect (env : Environment) (line : Line) : Except StepError Effect :=
  match assignmentParts? (cutStatement line.text) with
  | none => .ok line.otherEffect
  | some (name, right) =>
    if env.isConstant name then .error (.constReassignment name line.number)
    else
      let old := (env.valueOf? name).getD .undefined
      let value := evaluate env right
      .ok (.assign name value false
        (name ++ ": ".toList ++ old.display ++ " → ".toList ++ value.display))

/-- An output call prints its arguments with spaces between them. -/
def outputEffect (env : Environment) (line : Line) : Effect :=
  match outputArguments? line.text with
  | none => line.otherEffect
  | some arguments =>
    .print (Text.join [' '] ((splitTopLevel ',' arguments).map fun a => (evaluate env a).display))

/-- A conditional records whether its condition holds. -/
def conditionalEffect (env : Environment) (line : Line) : Effect :=
  let text := dropClosingBraces line.text
  let text := ((afterKeyword "else".toList text).map Text.trimLeft).getD text
  match (afterKeyword "if".toList text).bind firstParenGroup with
  | some condition =>
    .note .condition
      (if (evaluate env condition).truthy then "Condition: ✓ true".toList
       else "Condition: ✗ false".toList)
  | none => .note .condition "Else branch".toList

/-- A function definition records its name. -/
def definitionEffect (line : Line) : Effect :=
  match functionName? line.text with
  | some name => .note .other ("Function: ".toList ++ name)
  | none => line.otherEffect

/-- A return records its value, if it has one. -/
def returnEffect (env : Environment) (line : Line) : Effect :=
  match returnExpression? line.text with
  | none => line.otherEffect
  | some rest =>
    let expression := (cutStatement rest).trim
    if expression.isEmpty then line.otherEffect
    else .note .other ("Return: ".toList ++ (evaluate env expression).repr)

/-- A call records its name. -/
def callEffect (line : Line) : Effect :=
  match callName? line.text with
  | some name => .note .other ("Called: ".toList ++ name ++ "()".toList)
  | none => line.otherEffect

/-! ### Loop headers -/

/-- A counting loop starts when both its start and its bound are numbers; then the
variable must not be a constant unless the header declares it anew. -/
def forEffect (env : Environment) (line : Line) (header : ForHeader) :
    Except StepError Effect :=
  let bound := (splitComparison header.condition).bind fun (_, _, right) =>
    (evaluate env right).number?
  match (evaluate env header.start).number?, bound with
  | some start, some bound =>
    if header.keyword.isNone && env.isConstant header.variableName then
      .error (.constReassignment header.variableName line.number)
    else .ok (.startLoop (some ⟨header.variableName, start, bound⟩))
  | _, _ => .ok (.startLoop none)

/-- The loop that the condition of a header compares: a variable against a number. -/
def conditionHeader? (env : Environment) (condition : Text) : Option Effect.Header :=
  match splitComparison condition with
  | none => none
  | some (left, _, right) =>
    let name := left.trim
    if isVariableName name then
      (evaluate env right).number?.map fun bound => ⟨name, (env.numberOf? name).getD 0.0, bound⟩
    else none

/-- The effect of a loop header. A header of no known shape is only recorded. -/
def loopEffect (env : Environment) (line : Line) : Except StepError Effect :=
  match (afterKeyword "while".toList line.text).bind firstParenGroup with
  | some condition =>
    .ok (.meetLoop (conditionHeader? env condition) (evaluate env condition).truthy)
  | none =>
    match ((afterKeyword "for".toList line.text).bind firstParenGroup).bind forHeader? with
    | some header => forEffect env line header
    | none => .ok (.note .loop "Loop iteration".toList)

/-- The effect of a line, or why it fails. -/
def effect (env : Environment) (line : Line) : Except StepError Effect :=
  match line.kind with
  | .declaration => .ok (declarationEffect env line)
  | .assignment => assignmentEffect env line
  | .conditional => .ok (conditionalEffect env line)
  | .loop => loopEffect env line
  | .functionDefinition => .ok (definitionEffect line)
  | .return_ => .ok (returnEffect env line)
  | .output => .ok (outputEffect env line)
  | .functionCall => .ok (callEffect line)
  | .other => .ok line.otherEffect

end Line

/-! ### Applying effects -/

/-- The entry that an effect adds to the timeline. -/
def Effect.entry : Effect → Timeline.Kind × Text
  | .assign _ _ _ description => (.assignment, description)
  | .startLoop _ => (.loop, "Loop started".toList)
  | .meetLoop _ taken =>
    (.loop, if taken then "Loop: continuing".toList else "Loop: finished".toList)
  | .print text => (.output, "Output: ".toList ++ text)
  | .note kind description => (kind, description)

namespace Loop.Table

/-- Opens a tracker for a header, unless the header on this line has opened one. -/
def openHeader (table : Table) (line : Nat) (header : Effect.Header) : Table :=
  if table.hasHeader line then table
  else table.openLoop header.variableName header.current header.bound line

/-- The table after a value was written to a variable; only numbers are followed. -/
def feed (table : Table) (name : Text) (value : Value) : Table :=
  match value.number? with
  | some x => table.observe name x
  | none => table

end Loop.Table

/-- The state after an effect of the line with the given number. -/
def State.apply (state : State) (line : Nat) (effect : Effect) : State :=
  let (kind, description) := effect.entry
  let state := { state with timeline := state.timeline.record line kind description }
  match effect with
  | .assign name value constant _ =>
    { state with
      environment := state.environment.set name value constant
      loops := state.loops.feed name value }
  | .startLoop (some header) =>
    { state with
      environment := state.environment.set header.variableName (.number header.current) false
      loops := state.loops.openHeader line header }
  | .startLoop none => state
  | .meetLoop (some header) _ => { state with loops := state.loops.openHeader line header }
  | .meetLoop none _ => state
  | .print text => { state with console := state.console ++ [text] }
  | .note _ _ => state

/-! ### Running handlers -/

namespace Handler

variable {state next : State}

theorem run_get (rest : State → Handler) : (get >>= rest).run state = (rest state).run state :=
  rfl

theorem run_modify (f : State → State) (rest : Unit → Handler) :
    (modify f >>= rest).run state = (rest ()).run (f state) := rfl

theorem run_bind {first : Handler} (h : first.run state = .ok () next) (rest : Unit → Handler) :
    (first >>= rest).run state = (rest ()).run next := by
  change EStateM.bind first rest state = _
  rw [EStateM.bind, show first state = .ok () next from h]
  rfl

end Handler

/-! ### Handlers and effects -/

/-- What a handler leaves of a state if it has an effect, or fails before it changes anything. -/
def State.outcome (state : State) (line : Nat) :
    Except StepError Effect → EStateM.Result StepError State Unit
  | .ok effect => .ok () (state.apply line effect)
  | .error cause => .error cause state

namespace Line

open Expression (evaluate splitComparison)
open Handler (run_get run_modify run_bind)
open Text (afterKeyword cutStatement firstParenGroup splitTopLevel)

variable (line : Line) (state : State)

theorem run_writeBinding (name : Text) (value : Value) (constant : Bool) :
    (writeBinding name value constant).run state = .ok () { state with
      environment := state.environment.set name value constant
      loops := state.loops.feed name value } := by
  unfold writeBinding Loop.Table.feed
  cases value.number? <;> rfl

theorem run_executeDeclaration : line.executeDeclaration.run state =
    .ok () (state.apply line.number (declarationEffect state.environment line)) := by
  unfold executeDeclaration declarationEffect
  cases declarationKeyword? (cutStatement line.text) with
  | none => rfl
  | some pair =>
    obtain ⟨keyword, rest⟩ := pair
    simp only [run_get]
    cases declared? state.environment rest.trim with
    | none => rfl
    | some pair => exact run_bind (run_writeBinding state pair.1 pair.2 _) _

theorem run_executeAssignment : line.executeAssignment.run state =
    state.outcome line.number (assignmentEffect state.environment line) := by
  unfold executeAssignment assignmentEffect
  cases assignmentParts? (cutStatement line.text) with
  | none => rfl
  | some pair =>
    obtain ⟨name, right⟩ := pair
    simp only [run_get]
    split
    · rfl
    · exact run_bind (run_writeBinding state name _ _) _

theorem run_executeOutput : line.executeOutput.run state =
    .ok () (state.apply line.number (outputEffect state.environment line)) := by
  unfold executeOutput outputEffect
  cases outputArguments? line.text <;> rfl

theorem run_executeConditional : line.executeConditional.run state =
    .ok () (state.apply line.number (conditionalEffect state.environment line)) := by
  simp only [executeConditional, conditionalEffect, run_get]
  cases (afterKeyword "if".toList _).bind firstParenGroup <;> rfl

theorem run_executeDefinition : line.executeDefinition.run state =
    .ok () (state.apply line.number line.definitionEffect) := by
  unfold executeDefinition definitionEffect
  cases functionName? line.text <;> rfl

theorem run_executeReturn : line.executeReturn.run state =
    .ok () (state.apply line.number (returnEffect state.environment line)) := by
  unfold executeReturn returnEffect
  cases returnExpression? line.text with
  | none => rfl
  | some rest =>
    simp only
    split <;> rfl

theorem run_executeCall : line.executeCall.run state =
    .ok () (state.apply line.number line.callEffect) := by
  unfold executeCall callEffect
  cases callName? line.text <;> rfl

theorem run_openWhileTracker (condition : Text) (number : Nat) :
    (openWhileTracker condition number).run state =
      .ok () (match conditionHeader? state.environment condition with
        | some header => { state with loops := state.loops.openHeader number header }
        | none => state) := by
  simp only [openWhileTracker, conditionHeader?, Loop.Table.openHeader, run_get]
  cases state.loops.hasHeader number with
  | true =>
    simp only [if_true]
    split <;> rfl
  | false =>
    cases splitComparison condition with
    | none => rfl
    | some parts =>
      obtain ⟨left, op, right⟩ := parts
      simp only
      cases isVariableName left.trim with
      | false => rfl
      | true => cases (evaluate state.environment right).number? <;> rfl

/-- A counting loop sets its variable and opens a tracker, then it is recorded. A constant is
noticed before any of this. -/
theorem run_startForLoop (header : ForHeader) :
    (startForLoop header line.number >>= fun _ =>
        record line.number .loop "Loop started".toList).run state =
      state.outcome line.number (forEffect state.environment line header) := by
  simp only [startForLoop, forEffect, bind_assoc, run_get]
  cases (evaluate state.environment header.start).number? with
  | none => rfl
  | some start =>
    cases (splitComparison header.condition).bind _ with
    | none => rfl
    | some bound =>
      simp only
      split
      · rfl
      · simp only [bind_assoc, run_modify, run_get, State.outcome, State.apply,
          Loop.Table.openHeader]
        cases state.loops.hasHeader line.number <;> rfl

theorem run_executeLoop : line.executeLoop.run state =
    state.outcome line.number (loopEffect state.environment line) := by
  unfold executeLoop loopEffect
  cases (afterKeyword "while".toList line.text).bind firstParenGroup with
  | some condition =>
    simp only
    rw [run_bind (run_openWhileTracker state condition line.number)]
    cases conditionHeader? state.environment condition <;> rfl
  | none =>
    cases ((afterKeyword "for".toList line.text).bind firstParenGroup).bind forHeader? with
    | none => rfl
    | some header => exact line.run_startForLoop state header

/-- The handler of a line applies the effect of the line, or fails with the state as it was. -/
theorem run_execute : line.execute.run state =
    state.outcome line.number (line.effect state.environment) := by
  unfold execute effect
  cases line.kind with
  | declaration => exact line.run_executeDeclaration state
  | assignment => exact line.run_executeAssignment state
  | conditional => exact line.run_executeConditional state
  | loop => exact line.run_executeLoop state
  | functionDefinition => exact line.run_executeDefinition state
  | return_ => exact line.run_executeReturn state
  | output => exact line.run_executeOutput state
  | functionCall => exact line.run_executeCall state
  | other => rfl

/-- Lines with the same number and the same effects are executed alike. -/
theorem execute_congr {line line' : Line} (hnumber : line'.number = line.number)
    (heffect : ∀ env, line'.effect env = line.effect env) : line'.execute = line.execute := by
  funext state
  have hrun : line'.execute.run state = line.execute.run state := by
    rw [run_execute, run_execute, heffect, hnumber]
  exact hrun

end Line

end Stepwise
