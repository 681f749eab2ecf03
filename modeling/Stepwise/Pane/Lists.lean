import Stepwise.Engine.Snapshot
import Stepwise.Pane.Frame

/-!
# The panes with lists

The console, the variables, the loops and the timeline are lists of rows that can be
scrolled.

## Main definitions

* `Stepwise.Pane.consoleItems`, `drawConsole` — the printed lines.
* `Stepwise.Pane.bindingItems`, `drawBindings` — one row for each variable.
* `Stepwise.Pane.loopItems`, `drawLoops` — three rows for each loop.
* `Stepwise.Pane.timelineItems`, `drawTimeline` — one row for each entry.
-/

namespace Stepwise.Pane

open Screen (Area Color Item Span Style)
open Screen.Theme

/-! ### Console -/

/-- The rows of the console. -/
def consoleItems (output : List Text) : List Item :=
  output.map fun line => { spans := [⟨line, {}⟩], style := .ofColor text }

/-- Draws the console. -/
def drawConsole (screen : Screen) (area : Area) (focused : Bool) (offset : Nat)
    (output : List Text) : Screen :=
  drawItems screen area " Console ".toList focused "(no output)".toList 1 offset
    (consoleItems output)

/-! ### Variables -/

/-- The colour of a value. -/
def valueColor : Value → Color
  | .number _ => peach
  | .str _ => green
  | .bool _ | .null | .undefined => blue
  | .structured _ => teal
  | .symbolic _ => text
  | .unresolved _ => muted

/-- A text cut to a number of characters, with a mark where it is cut. -/
def shorten (room : Nat) (value : Text) : Text :=
  if room < value.length && 1 < room then value.take (room - 1) ++ ['…'] else value

/-- The row of a variable in a pane with the given number of columns: its name and
value on the left, the kind of the value on the right. -/
def bindingSpans (width : Nat) (view : BindingView) : List Span :=
  let marker := if view.changed then "● ".toList else "  ".toList
  let nameStyle := if view.changed then (Style.ofColor pink).inBold else .ofColor text
  let valueStyle := Style.ofColor (valueColor view.value)
  let kind := view.kind.label
  let left := marker ++ view.name ++ " = ".toList
  let value := shorten (width - (left.length + kind.length + 1)) view.display
  let padding := width - (left.length + value.length + kind.length)
  [⟨left, nameStyle⟩,
    ⟨value, if view.changed then valueStyle.inBold else valueStyle⟩,
    ⟨List.replicate padding ' ', {}⟩,
    ⟨kind, .ofColor teal⟩]

/-- The rows of the variables. -/
def bindingItems (width : Nat) (bindings : List BindingView) : List Item :=
  bindings.map fun view => { spans := bindingSpans width view }

/-- Draws the variables, under a title that names the open calls. -/
def drawBindings (screen : Screen) (area : Area) (focused : Bool) (offset : Nat)
    (bindings : List BindingView) (callStack : List Text) : Screen :=
  let title := " Variables [".toList ++ Text.join " › ".toList callStack ++ "] ".toList
  drawItems screen area title focused "(no variables)".toList 0 offset
    (bindingItems (area.width - 2) bindings)

/-! ### Loops -/

/-- The number of cells of a progress bar. -/
def barWidth : Nat := 20

/-- How many cells of a progress bar are filled for a part of the way. -/
def filledCells (part : Float) : Nat :=
  min (part * 20.0).round.toUInt64.toNat barWidth

/-- A progress bar. -/
def progressBar (part : Float) : Text :=
  List.replicate (filledCells part) '█' ++ List.replicate (barWidth - filledCells part) '░'

/-- The three rows of a loop: where it stands, its progress bar and its values. -/
def trackerSpans (tracker : Loop.Tracker) : List (List Span) :=
  let state := if tracker.active then "active".toList else "done".toList
  let stateStyle := Style.ofColor (if tracker.active then green else muted)
  let values := Text.join " → ".toList (tracker.history.map Number.display)
  [[⟨tracker.variableName ++ [' '], (Style.ofColor yellow).inBold⟩,
      ⟨Number.display tracker.current ++ " / ".toList ++ Number.display tracker.bound ++ [' '],
        .ofColor peach⟩,
      ⟨"(".toList ++ state ++ ", line ".toList ++ Text.ofNat tracker.line ++ ")".toList,
        stateStyle⟩],
    [⟨"  ".toList, {}⟩, ⟨progressBar tracker.progress, .ofColor blue⟩],
    [⟨"  ".toList ++ values, .ofColor text⟩]]

/-- The rows of the loops. -/
def loopItems (loops : List Loop.Tracker) : List Item :=
  (loops.flatMap trackerSpans).map fun spans => { spans }

/-- Draws the loops. -/
def drawLoops (screen : Screen) (area : Area) (focused : Bool) (offset : Nat)
    (loops : List Loop.Tracker) : Screen :=
  drawItems screen area " Loops ".toList focused "(no loops)".toList 0 offset (loopItems loops)

/-! ### Timeline -/

/-- The colour of a kind of entry. -/
def entryColor : Timeline.Kind → Color
  | .loop => blue
  | .condition => mauve
  | .assignment => pink
  | .output => green
  | .other => muted

/-- The row of an entry: its line, its kind and what happened. -/
def entrySpans (entry : Timeline.Entry) : List Span :=
  [⟨Text.padLeft 4 (Text.ofNat entry.line) ++ [' '], .ofColor muted⟩,
    ⟨Text.padRight 10 entry.kind.label, .ofColor (entryColor entry.kind)⟩,
    ⟨entry.description, .ofColor text⟩]

/-- The rows of the timeline. -/
def timelineItems (history : List Timeline.Entry) : List Item :=
  history.map fun entry => { spans := entrySpans entry }

/-- Draws the timeline, under a title that counts its entries. -/
def drawTimeline (screen : Screen) (area : Area) (focused : Bool) (offset : Nat)
    (history : List Timeline.Entry) : Screen :=
  let title := " Timeline (".toList ++ Text.ofNat history.length ++ ") ".toList
  drawItems screen area title focused "(nothing executed yet)".toList 0 offset
    (timelineItems history)

end Stepwise.Pane
