import Stepwise.Pane.Lists
import Stepwise.Pane.Status
import Stepwise.Player.Basic

/-!
# The picture of the player

Drawing first settles how far the panes are scrolled and then paints them. The
scrolling is remembered, so that drawing changes the player; the picture is a
function of the player.

## Main definitions

* `Stepwise.Player.Layout` — where the panes are.
* `Stepwise.Player.settle` — the player after drawing on a screen of a given size.
* `Stepwise.Player.picture` — what the screen shows.
* `Stepwise.Player.session` — drawing, automatic steps and events in turn.
-/

namespace Stepwise.Player

open Screen (Area portion)

/-- Where the panes are. -/
structure Layout where
  source : Area
  console : Area
  bindings : Area
  loops : Area
  timeline : Area
  status : Area

/-- The layout of a screen: the status bar in the last row, the program and the
console in the left column, the other panes in the right one. -/
def layout (width height : Nat) : Layout :=
  let main : Area := ⟨0, 0, width, height - 1⟩
  let middle := portion width 55
  let left := main.columns 0 middle
  let right := main.columns middle width
  let rows := main.height
  { source := left.rows 0 (portion rows 65)
    console := left.rows (portion rows 65) rows
    bindings := right.rows 0 (portion rows 35)
    loops := right.rows (portion rows 35) (portion rows 60)
    timeline := right.rows (portion rows 60) rows
    status := ⟨0, height - 1, width, min height 1⟩ }

/-- The player after drawing: every pane is scrolled to a place that it has. -/
def settle (width height : Nat) (player : Player) : Player :=
  let layout := layout width height
  let snapshot := player.snapshot
  let scroll := player.scroll
  { player with
    scroll :=
      { source := scroll.source.follow layout.source.height
          (Pane.sourceLines player.engine.source).length snapshot.currentLine
          player.engine.nextLine?
        console := Pane.scrollTo scroll.console snapshot.output.length layout.console.height
        bindings :=
          Pane.scrollTo scroll.bindings snapshot.bindings.length layout.bindings.height
        loops :=
          Pane.scrollTo scroll.loops (Pane.loopItems snapshot.loops).length layout.loops.height
        timeline :=
          Pane.scrollTo scroll.timeline snapshot.history.length layout.timeline.height } }

/-- What the screen shows of a player whose panes are settled. -/
def picture (width height : Nat) (player : Player) : Screen :=
  let layout := layout width height
  let snapshot := player.snapshot
  let scroll := player.scroll
  let focused (focus : Focus) : Bool := player.focus == focus
  let screen := Screen.blank width height
  let screen := Pane.drawSource screen layout.source (focused .source) scroll.source.offset
    ⟨snapshot.currentLine, player.engine.nextLine?, snapshot.status == .error⟩
    (Pane.sourceLines player.engine.source)
  let screen := Pane.drawConsole screen layout.console (focused .console) scroll.console
    snapshot.output
  let screen := Pane.drawBindings screen layout.bindings (focused .bindings)
    scroll.bindings snapshot.bindings snapshot.callStack
  let screen := Pane.drawLoops screen layout.loops (focused .loops) scroll.loops snapshot.loops
  let screen := Pane.drawTimeline screen layout.timeline (focused .timeline) scroll.timeline
    snapshot.history
  Pane.drawStatus screen layout.status
    { message := player.message
      status := player.displayStatus
      stepsTaken := snapshot.stepsTaken
      currentLine := snapshot.currentLine
      lineCount := player.engine.lineCount
      interval := player.interval }

/-- A session at one instant: draw, stop if asked to, take the automatic step, handle
the next event, and so on. -/
def session (width height now : Nat) : List Event → Player → Player
  | [], player => player.settle width height
  | event :: events, player =>
    let drawn := player.settle width height
    if drawn.quitting then drawn
    else session width height now events ((drawn.tick now).handle now event)

/-- The session of a single event, which ends by quitting. -/
def sessionOf (width height now : Nat) (event : Event) (player : Player) : Player :=
  let quit : Event := .press (.char 'q')
  let events :=
    if event = quit || event = .press (.char 'Q') then [event] else [event, quit]
  { player.session width height now events with quitting := false }

end Stepwise.Player
