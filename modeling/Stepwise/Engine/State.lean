import Stepwise.Environment
import Stepwise.Loop
import Stepwise.Timeline

/-!
# The state of a run

## Main definitions

* `Stepwise.Status` — the stages of a run.
* `Stepwise.StepError` — why a step can fail, with the message for each cause.
* `Stepwise.State` — everything that steps change; `initial` and `reset` start a run.
-/

namespace Stepwise

/-! ### Stages -/

/-- The stages of a run. A run starts idle, goes on running and ends complete or with
an error; `paused` is only shown, never entered. -/
inductive Status where
  | idle
  | running
  | paused
  | complete
  | error
  deriving DecidableEq, Repr

namespace Status

/-- The label of a stage. -/
def label : Status → Text
  | .idle => "idle".toList
  | .running => "running".toList
  | .paused => "paused".toList
  | .complete => "complete".toList
  | .error => "error".toList

/-- The run has ended. -/
def isTerminal : Status → Bool
  | .complete | .error => true
  | _ => false

end Status

/-! ### Failures -/

/-- Why a step fails. -/
inductive StepError where
  /-- A constant is written. -/
  | constReassignment (name : Text) (line : Nat)
  /-- The run has taken as many steps as it may. -/
  | stepLimitExceeded (limit : Nat) (line : Nat)
  deriving DecidableEq, Repr

namespace StepError

/-- The line on which the step fails. -/
def line : StepError → Nat
  | .constReassignment _ line => line
  | .stepLimitExceeded _ line => line

/-- What went wrong, in words. -/
def message : StepError → Text
  | .constReassignment name _ => "Assignment to constant variable '".toList ++ name ++ [ '\x27' ]
  | .stepLimitExceeded limit _ =>
    "Step limit of ".toList ++ Text.ofNat limit ++ " exceeded".toList

/-- What went wrong and where. -/
def report (error : StepError) : Text :=
  "Error at line ".toList ++ Text.ofNat error.line ++ ": ".toList ++ error.message

end StepError

/-! ### States -/

/-- Everything that the steps of a run change. -/
structure State where
  environment : Environment
  loops : Loop.Table
  /-- The names of the open calls. -/
  callStack : List Text
  /-- The printed lines. -/
  console : List Text
  /-- What has happened. -/
  timeline : Timeline
  status : Status
  /-- The report of the failed step. -/
  error : Option Text
  /-- The number of the line executed last, zero before the first step. -/
  currentLine : Nat
  /-- How many steps succeeded. -/
  stepsTaken : Nat

namespace State

/-- The state before the first step, with a single open call. -/
def initial (frame : Text) : State where
  environment := .empty
  loops := .empty
  callStack := [frame]
  console := []
  timeline := .empty
  status := .idle
  error := none
  currentLine := 0
  stepsTaken := 0

/-- Clears every part of a state and leaves a single open call. -/
def reset (state : State) (frame : Text) : State :=
  { state with
    environment := state.environment.clear
    loops := state.loops.clear
    callStack := [frame]
    console := []
    timeline := state.timeline.clear
    status := .idle
    error := none
    currentLine := 0
    stepsTaken := 0 }

/-- Clearing leaves nothing of a state: it is as before the first step. -/
@[simp] theorem reset_eq_initial (state : State) (frame : Text) :
    state.reset frame = initial frame := rfl

end State

end Stepwise
