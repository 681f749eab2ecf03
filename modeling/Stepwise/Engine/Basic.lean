import Stepwise.Engine.Handlers
import Stepwise.Engine.Snapshot

/-!
# The engine

The engine runs a program line by line. Each step executes the next executable line
to its end; after the last one, a step completes the run. Steps after the end change
nothing.

## Main definitions

* `Stepwise.Engine` — a loaded program and the state of its run.
* `Stepwise.Engine.load`, `reset`, `advance` — what can be done with it.
* `Stepwise.Engine.nextLine?` — the line that the next step executes.
* `Stepwise.Engine.run` — all states up to the end of the run.
-/

namespace Stepwise

/-- The settings of an engine. -/
structure EngineSettings where
  /-- How many steps a run may take. -/
  maxSteps : Option Nat := none
  /-- The name of the single open call. -/
  initialFrame : Text := "main".toList
  deriving DecidableEq, Repr, Inhabited

/-- A loaded program and the state of its run. -/
structure Engine where
  settings : EngineSettings
  source : Text
  lines : List Line
  /-- The index of the line executed last. -/
  cursor : Option Nat
  state : State
  /-- What the last step showed. -/
  last : Snapshot

/-- Executes a line unless the run has taken all its steps. The line is the current one
either way. -/
def Line.stepOnto (settings : EngineSettings) (line : Line) : Handler := do
  modify fun state => { state with currentLine := line.number }
  if let some limit := settings.maxSteps then
    if limit ≤ (← get).stepsTaken then
      throw (.stepLimitExceeded limit line.number)
  line.execute

namespace State

/-- Executes a line with its handler, or says why it fails. The state is the one that the
handler leaves behind, also when it fails. -/
def perform (settings : EngineSettings) (state : State) (line : Line) :
    EStateM.Result StepError State Unit :=
  (line.stepOnto settings).run state

/-- The state after a step onto a line. A step that fails goes on from what its handler
has left behind. -/
def step (settings : EngineSettings) (state : State) (line : Line) : State :=
  match state.perform settings line with
  | .ok _ next => { next with status := .running, stepsTaken := next.stepsTaken + 1 }
  | .error cause next => { next with error := some cause.report, status := .error }

/-- The state after the last line. -/
def finish (state : State) : State :=
  { state with status := .complete, loops := state.loops.deactivateAll }

end State

namespace Engine

/-- The engine without a program. -/
def new (settings : EngineSettings) : Engine :=
  let state := State.initial settings.initialFrame
  { settings, source := [], lines := [], cursor := none, state, last := .capture state none }

/-- The run starts anew. -/
def reset (engine : Engine) : Engine :=
  let state := engine.state.reset engine.settings.initialFrame
  { engine with cursor := none, state, last := .capture state none }

/-- Loads a program; its run starts anew. -/
def load (engine : Engine) (source : Text) : Engine :=
  reset { engine with source, lines := Line.program source }

/-- The index from which the next line is looked for. -/
def nextIndex (engine : Engine) : Nat :=
  match engine.cursor with
  | some index => index + 1
  | none => 0

/-- The next executable line with its index. -/
def next? (engine : Engine) : Option (Line × Nat) :=
  (engine.lines.zipIdx.drop engine.nextIndex).find? fun (line, _) => line.isExecutable

/-- Executes the next executable line, or completes the run after the last one. The
snapshot of the step is kept. -/
def advance (engine : Engine) : Engine :=
  if engine.state.status.isTerminal then engine
  else match engine.next? with
    | none =>
      let state := engine.state.finish
      { engine with state, last := .capture state none }
    | some (line, index) =>
      let state := engine.state.step engine.settings line
      { engine with
        cursor := some index
        state
        last := .capture state (some engine.state.environment) }

/-- What the engine shows now, without marks of change. -/
def current (engine : Engine) : Snapshot :=
  .capture engine.state none

/-- The stage of the run. -/
def status (engine : Engine) : Status :=
  engine.state.status

/-- The number of lines, blank ones included. -/
def lineCount (engine : Engine) : Nat :=
  engine.lines.length

/-- The number of the line that the next step executes. -/
def nextLine? (engine : Engine) : Option Nat :=
  if engine.state.status.isTerminal then none
  else engine.next?.map fun (line, _) => line.number

/-- The engines after each of at most `n` steps, up to the end of the run. -/
def runFor : Nat → Engine → List Engine
  | 0, _ => []
  | n + 1, engine =>
    if engine.state.status.isTerminal then []
    else
      let next := engine.advance
      next :: runFor n next

/-- The engines after each step up to the end of the run. Every step but the last one
moves to a later line, so there is at most one step more than there are lines. -/
def run (engine : Engine) : List Engine :=
  runFor (engine.lines.length + 1) engine

end Engine

end Stepwise
