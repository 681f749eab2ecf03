import Stepwise.Engine.State
import Stepwise.Expression.Evaluate
import Stepwise.Line.Basic

/-!
# Executing a line

Each kind of line has a handler, which evaluates what it needs and changes the state part
by part. A handler that fails leaves behind whatever it has changed by then. Control never
branches: conditions and loop headers are evaluated and recorded, and execution goes on
with the next line.

## Main definitions

* `Stepwise.Handler` — a computation that changes the state and can fail.
* `Stepwise.Line.writeBinding`, `openWhileTracker`, `startForLoop` — what handlers share.
* `Stepwise.Line.execute` — the handler of a line.
-/

namespace Stepwise

/-- A computation that changes the state and can fail. The changes made before a failure
stay. -/
abbrev Handler := EStateM StepError State Unit

namespace Line

open Expression (evaluate splitComparison)
open Text (afterKeyword cutStatement firstParenGroup isWord splitTopLevel)

/-- Adds an entry to the timeline. -/
def record (number : Nat) (kind : Timeline.Kind) (description : Text) : Handler :=
  modify fun state => { state with timeline := state.timeline.record number kind description }

/-! ### Statements -/

/-- A line that nothing is known about is only recorded. -/
def executeOther (line : Line) : Handler :=
  record line.number .other ("Line ".toList ++ Text.ofNat line.number)

/-- Writes a variable. The trackers that follow it are fed first, and only numbers are
followed. -/
def writeBinding (name : Text) (value : Value) (constant : Bool) : Handler := do
  if let some x := value.number? then
    modify fun state => { state with loops := state.loops.observe name x }
  modify fun state => { state with environment := state.environment.set name value constant }

/-- The name that the text after a declaring word declares, with its value. -/
def declared? (env : Environment) (text : Text) : Option (Text × Value) :=
  match assignmentParts? text with
  | some (name, right) => some (name, evaluate env right)
  | none => if isWord text then some (text, .undefined) else none

/-- A declaration writes the declared name, constant or not as its keyword says. -/
def executeDeclaration (line : Line) : Handler := do
  match declarationKeyword? (cutStatement line.text) with
  | none => line.executeOther
  | some (keyword, rest) =>
    match declared? (← get).environment rest.trim with
    | none => line.executeOther
    | some (name, value) =>
      writeBinding name value (keyword == .const_)
      record line.number .assignment ("Set ".toList ++ name ++ " = ".toList ++ value.repr)

/-- An assignment writes its name, unless that is a constant. -/
def executeAssignment (line : Line) : Handler := do
  match assignmentParts? (cutStatement line.text) with
  | none => line.executeOther
  | some (name, right) =>
    let env := (← get).environment
    if env.isConstant name then
      throw (.constReassignment name line.number)
    let old := (env.valueOf? name).getD .undefined
    let value := evaluate env right
    writeBinding name value false
    record line.number .assignment
      (name ++ ": ".toList ++ old.display ++ " → ".toList ++ value.display)

/-- An output call prints its arguments with spaces between them. -/
def executeOutput (line : Line) : Handler := do
  match outputArguments? line.text with
  | none => line.executeOther
  | some arguments =>
    let env := (← get).environment
    let text := Text.join [' '] ((splitTopLevel ',' arguments).map fun a => (evaluate env a).display)
    modify fun state => { state with console := state.console ++ [text] }
    record line.number .output ("Output: ".toList ++ text)

/-- A conditional records whether its condition holds. -/
def executeConditional (line : Line) : Handler := do
  let text := dropClosingBraces line.text
  let text := ((afterKeyword "else".toList text).map Text.trimLeft).getD text
  let env := (← get).environment
  let description := match (afterKeyword "if".toList text).bind firstParenGroup with
    | some condition =>
      if (evaluate env condition).truthy then "Condition: ✓ true".toList
      else "Condition: ✗ false".toList
    | none => "Else branch".toList
  record line.number .condition description

/-- A function definition records its name. -/
def executeDefinition (line : Line) : Handler :=
  match functionName? line.text with
  | some name => record line.number .other ("Function: ".toList ++ name)
  | none => line.executeOther

/-- A return records its value, if it has one. -/
def executeReturn (line : Line) : Handler := do
  match returnExpression? line.text with
  | none => line.executeOther
  | some rest =>
    let expression := (cutStatement rest).trim
    if expression.isEmpty then line.executeOther
    else
      let value := evaluate (← get).environment expression
      record line.number .other ("Return: ".toList ++ value.repr)

/-- A call records its name. -/
def executeCall (line : Line) : Handler :=
  match callName? line.text with
  | some name => record line.number .other ("Called: ".toList ++ name ++ "()".toList)
  | none => line.executeOther

/-! ### Loop headers -/

/-- A word that can name a variable. -/
def isVariableName (text : Text) : Bool :=
  isWord text && !text.head?.any Char.isDigit

/-- Opens a tracker for a condition that compares a variable with a number, unless the
header on this line has opened one. -/
def openWhileTracker (condition : Text) (number : Nat) : Handler := do
  let { loops, environment := env, .. } ← get
  if loops.hasHeader number then
    return
  match splitComparison condition with
  | none => return
  | some (left, _, right) =>
    let name := left.trim
    if isVariableName name then
      match (evaluate env right).number? with
      | none => return
      | some bound =>
        let current := (env.numberOf? name).getD 0.0
        modify fun state =>
          { state with loops := state.loops.openLoop name current bound number }

/-- The parts of the header of a counting loop. -/
structure ForHeader where
  /-- The word that declares the variable, if there is one. -/
  keyword : Option Keyword
  /-- The controlling variable. -/
  variableName : Text
  /-- The expression with which the variable starts. -/
  start : Text
  condition : Text
  deriving DecidableEq, Repr

/-- The parts of a header that has three of them and starts with an assignment. -/
def forHeader? (inner : Text) : Option ForHeader :=
  match splitTopLevel ';' inner with
  | [first, condition, _] =>
    let (keyword, init) := match declarationKeyword? first.trim with
      | some (keyword, rest) => (some keyword, Text.trimLeft rest)
      | none => (none, first.trim)
    (assignmentParts? init).map fun (variableName, start) =>
      { keyword, variableName, start, condition }
  | _ => none

/-- Starts a counting loop if both its start and its bound are numbers. Then the variable
must not be a constant unless the header declares it anew. -/
def startForLoop (header : ForHeader) (number : Nat) : Handler := do
  let env := (← get).environment
  let bound := (splitComparison header.condition).bind fun (_, _, right) =>
    (evaluate env right).number?
  match (evaluate env header.start).number?, bound with
  | some start, some bound =>
    if header.keyword.isNone && env.isConstant header.variableName then
      throw (.constReassignment header.variableName number)
    modify fun state =>
      { state with environment := state.environment.set header.variableName (.number start) false }
    if !(← get).loops.hasHeader number then
      modify fun state =>
        { state with loops := state.loops.openLoop header.variableName start bound number }
  | _, _ => return

/-- A loop header of a known shape is met or started. A header of no known shape is only
recorded. -/
def executeLoop (line : Line) : Handler := do
  match (afterKeyword "while".toList line.text).bind firstParenGroup with
  | some condition =>
    openWhileTracker condition line.number
    let taken := (evaluate (← get).environment condition).truthy
    record line.number .loop
      (if taken then "Loop: continuing".toList else "Loop: finished".toList)
  | none =>
    match ((afterKeyword "for".toList line.text).bind firstParenGroup).bind forHeader? with
    | some header =>
      startForLoop header line.number
      record line.number .loop "Loop started".toList
    | none => record line.number .loop "Loop iteration".toList

/-- The handler of a line. -/
def execute (line : Line) : Handler :=
  match line.kind with
  | .declaration => line.executeDeclaration
  | .assignment => line.executeAssignment
  | .conditional => line.executeConditional
  | .loop => line.executeLoop
  | .functionDefinition => line.executeDefinition
  | .return_ => line.executeReturn
  | .output => line.executeOutput
  | .functionCall => line.executeCall
  | .other => line.executeOther

end Line

end Stepwise
