import Stepwise.Engine.Basic
import Stepwise.Pane.Source

/-!
# The player

The player drives an engine by keys and by the clock. It holds what is shown: the
last snapshot, the focused pane, how far each pane is scrolled and a message. Times
are in milliseconds and are given from outside.

## Main definitions

* `Stepwise.Player` — an engine with what is shown of it.
* `Stepwise.Player.Key`, `Stepwise.Player.press` — keys and what they do.
* `Stepwise.Player.tick` — the automatic step while playing.
-/

namespace Stepwise

namespace Player

/-- The panes that can have the focus. -/
inductive Focus where
  | source
  | console
  | bindings
  | loops
  | timeline
  deriving DecidableEq, Repr

/-- The pane that has the focus next. -/
def Focus.next : Focus → Focus
  | .source => .console
  | .console => .bindings
  | .bindings => .loops
  | .loops => .timeline
  | .timeline => .source

/-- The keys; those without a meaning of their own are all the same. -/
inductive Key where
  | char (c : Char)
  | right
  | left
  | up
  | down
  | tab
  | enter
  | other
  deriving DecidableEq, Repr

/-- What can happen: a key is pressed, or something that does not matter. -/
inductive Event where
  | press (key : Key)
  | ignored
  deriving DecidableEq, Repr

/-- How far each pane is scrolled. -/
structure Scroll where
  source : Pane.SourceScroll := {}
  /-- The first row of the console. -/
  console : Nat := 0
  /-- The first row of the variables. -/
  bindings : Nat := 0
  /-- The first row of the loops. -/
  loops : Nat := 0
  /-- The first row of the timeline. -/
  timeline : Nat := 0
  deriving DecidableEq, Repr

/-- The greatest scroll request; it stands for the bottom of a pane. -/
def bottom : Nat := UInt64.size - 1

/-- One row further, unless the bottom is requested. -/
def increase (n : Nat) : Nat := min (n + 1) bottom

/-- Two space presses within this time count as one. -/
def debounce : Nat := 200

end Player

/-- An engine with what is shown of it. -/
structure Player where
  engine : Engine
  /-- The snapshot of the last step. -/
  snapshot : Snapshot
  focus : Player.Focus
  /-- How far each pane is scrolled. -/
  scroll : Player.Scroll
  /-- The player is asked to stop. -/
  quitting : Bool
  /-- The message in the status bar. -/
  message : Text
  /-- Steps are taken automatically. -/
  playing : Bool
  /-- The time between automatic steps. -/
  interval : Nat
  /-- When the last automatic step was taken. -/
  lastPlay : Nat
  /-- When the space key was last accepted. -/
  lastSpace : Option Nat

namespace Player

/-- The player of an engine that holds a program. -/
def new (engine : Engine) (interval now : Nat) : Player where
  engine
  snapshot := engine.current
  focus := .source
  scroll := {}
  quitting := false
  message := "Ready!".toList
  playing := false
  interval
  lastPlay := now
  lastSpace := none

/-- The stage as shown: a running engine that nobody drives is paused. -/
def displayStatus (player : Player) : Status :=
  if player.engine.status = .running && !player.playing then .paused else player.engine.status

/-! ### Steps -/

/-- The message after a step. -/
def stepMessage (wasTerminal : Bool) (snapshot : Snapshot) : Text :=
  match snapshot.status with
  | .error => snapshot.error.getD []
  | .complete =>
    if wasTerminal then "Execution complete, press r to reset".toList
    else "Execution complete".toList
  | _ => "Stepped forward".toList

/-- Takes a step; the console and the timeline go to their bottom. -/
def stepForward (player : Player) : Player :=
  let engine := player.engine.advance
  { player with
    engine
    snapshot := engine.last
    message := stepMessage player.engine.status.isTerminal engine.last
    scroll := { player.scroll with console := bottom, timeline := bottom } }

/-- Takes up to `n` steps, none after the end of the run; gives how many. -/
def stepMany : Nat → Player → Nat × Player
  | 0, player => (0, player)
  | n + 1, player =>
    if player.engine.status.isTerminal then (0, player)
    else
      let (taken, final) := stepMany n player.stepForward
      (taken + 1, final)

/-- The automatic step, if the player is playing and the interval has passed. -/
def tick (now : Nat) (player : Player) : Player :=
  if player.playing && player.interval ≤ now - player.lastPlay then
    let stepped := player.stepForward
    let status := stepped.engine.status
    { stepped with
      playing := !status.isTerminal
      message :=
        if status = .complete then "Playback complete".toList
        else if status = .error then stepped.message
        else "Playing...".toList
      lastPlay := now }
  else player

/-! ### Keys -/

/-- A digit key takes as many steps at once. -/
def pressDigit (n : Nat) (player : Player) : Player :=
  let (taken, final) := stepMany n { player with playing := false }
  if final.engine.status = .error then final
  else
    { final with
      message := "Stepped forward ".toList ++ Text.ofNat taken ++ " step(s)".toList }

/-- The run starts anew. -/
def reset (player : Player) : Player :=
  let engine := player.engine.reset
  { player with
    playing := false
    engine
    snapshot := engine.current
    scroll := { player.scroll with console := 0, timeline := 0 }
    message := "Reset".toList }

/-- Scrolls the focused pane up. In the source pane the followed line moves down. -/
def scrollUp (focus : Focus) (scroll : Scroll) : Scroll :=
  match focus with
  | .source =>
    { scroll with
      source := { scroll.source with targetRow := scroll.source.targetRow.map increase } }
  | .console => { scroll with console := scroll.console - 1 }
  | .bindings => { scroll with bindings := scroll.bindings - 1 }
  | .loops => { scroll with loops := scroll.loops - 1 }
  | .timeline => { scroll with timeline := scroll.timeline - 1 }

/-- Scrolls the focused pane down. In the source pane the followed line moves up. -/
def scrollDown (focus : Focus) (scroll : Scroll) : Scroll :=
  match focus with
  | .source =>
    { scroll with
      source := { scroll.source with targetRow := scroll.source.targetRow.map (· - 1) } }
  | .console => { scroll with console := increase scroll.console }
  | .bindings => { scroll with bindings := increase scroll.bindings }
  | .loops => { scroll with loops := increase scroll.loops }
  | .timeline => { scroll with timeline := increase scroll.timeline }

/-- Starts or stops playing. The first automatic step is due at once. -/
def togglePlay (now : Nat) (player : Player) : Player :=
  if player.playing then { player with playing := false, message := "Paused".toList }
  else if player.engine.status.isTerminal then
    { player with message := "Nothing left to play, press r to reset".toList }
  else
    { player with
      playing := true
      -- The interval counts as already passed.
      lastPlay := if player.interval ≤ now then now - player.interval else now
      message := "Playing...".toList }

/-- The space key plays and pauses, unless it was accepted a moment ago. -/
def pressSpace (now : Nat) (player : Player) : Player :=
  if player.lastSpace.any fun last => now - last < debounce then player
  else togglePlay now { player with lastSpace := some now }

/-- What a key does. -/
def press (now : Nat) (key : Key) (player : Player) : Player :=
  match key with
  | .right => ({ player with playing := false }).stepForward
  | .tab => { player with focus := player.focus.next }
  | .up => { player with scroll := scrollUp player.focus player.scroll }
  | .down => { player with scroll := scrollDown player.focus player.scroll }
  | .left | .enter | .other => player
  | .char c =>
    if c = 'q' || c = 'Q' then { player with quitting := true }
    else if '1' ≤ c && c ≤ '9' then pressDigit (c.toNat - '0'.toNat) player
    else if c = 'n' then ({ player with playing := false }).stepForward
    else if c = 'r' || c = 'R' then player.reset
    else if c = ' ' then pressSpace now player
    else player

/-- What an event does. -/
def handle (now : Nat) (event : Event) (player : Player) : Player :=
  match event with
  | .press key => player.press now key
  | .ignored => player

end Player

end Stepwise
