import Stepwise.Engine.State
import Stepwise.Screen.Grid

/-!
# The status bar

## Main definitions

* `Stepwise.Pane.StatusView` — what the status bar shows.
* `Stepwise.Pane.drawStatus` — the status bar: the state of the run on the left, the
  keys on the right.
-/

namespace Stepwise.Pane

open Screen (Area Color Span Style)
open Screen.Theme

/-- What the status bar shows. -/
structure StatusView where
  message : Text
  status : Status
  /-- How many steps succeeded. -/
  stepsTaken : Nat
  /-- The number of the line executed last. -/
  currentLine : Nat
  lineCount : Nat
  /-- The time between automatic steps in milliseconds. -/
  interval : Nat

/-- The colour of the badge of a stage. -/
def statusColor : Status → Color
  | .idle => muted
  | .running => peach
  | .paused => blue
  | .complete => green
  | .error => red

/-- The left half of the status bar. -/
def statusSpans (view : StatusView) : List Span :=
  let messageColor := if view.status = .error then red else text
  [⟨[' '] ++ view.status.label.map Char.toUpper ++ [' '],
      ((Style.ofColor .black).on (statusColor view.status)).inBold⟩,
    ⟨" Step ".toList ++ Text.ofNat view.stepsTaken ++ " · line ".toList ++
        Text.ofNat view.currentLine ++ "/".toList ++ Text.ofNat view.lineCount ++ [' '],
      (Style.ofColor text).on surface⟩,
    ⟨"│".toList, (Style.ofColor muted).on surface⟩,
    ⟨[' '] ++ view.message ++ [' '], (Style.ofColor messageColor).on surface⟩]

/-- The keys and what they do. -/
def keyLabels (interval : Nat) : List (Text × Text) :=
  [(" →/n ".toList, " step ".toList),
    (" 1-9 ".toList, " step N ".toList),
    (" ⎵ ".toList, " play ".toList ++ Text.ofNat interval ++ "ms ".toList),
    (" r ".toList, " reset ".toList),
    (" ⇥ ".toList, " focus ".toList),
    (" q ".toList, " quit ".toList)]

/-- The right half of the status bar. -/
def keySpans (interval : Nat) : List Span :=
  let separator : Span := ⟨"│".toList, (Style.ofColor muted).on surface⟩
  let groups := (keyLabels interval).map fun (key, action) =>
    [⟨key, (Style.ofColor .black).on muted⟩, ⟨action, (Style.ofColor text).on surface⟩]
  (groups.intersperse [separator]).flatten

/-- Draws one half of the status bar; its first column is `shift` columns in. -/
def drawHalf (screen : Screen) (area : Area) (shift : Nat) (spans : List Span) : Screen :=
  let tinted := screen.tint area (Style.plain.on surface)
  if area.isEmpty then tinted
  else tinted.writeLine (area.x + shift) area.y (area.width - shift) spans

/-- Draws the status bar. The keys end in the last column where they fit. -/
def drawStatus (screen : Screen) (area : Area) (view : StatusView) : Screen :=
  let middle := Screen.portion area.width 50
  let left := area.columns 0 middle
  let right := area.columns middle area.width
  let keys := keySpans view.interval
  let length := (Screen.glyphs keys).length
  drawHalf (drawHalf screen left 0 (statusSpans view)) right (right.width - length) keys

end Stepwise.Pane
