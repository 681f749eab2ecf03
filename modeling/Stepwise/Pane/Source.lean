import Stepwise.Pane.Frame
import Stepwise.Pane.Highlight

/-!
# The source pane

The source pane shows the program with line numbers. It follows the line executed
last, or the next one before the first step, and keeps it in one row of the pane.

## Main definitions

* `Stepwise.Pane.sourceLines` — the lines of a text.
* `Stepwise.Pane.SourceScroll`, `Stepwise.Pane.SourceScroll.follow` — the part shown.
* `Stepwise.Pane.drawSource` — the pane.
-/

namespace Stepwise.Pane

open Screen (Area Color Span Style)
open Screen.Theme

/-- A line without the carriage return before its line feed. -/
def dropReturn (line : Text) : Text :=
  if line.getLast? == some '\r' then line.dropLast else line

/-- Lines from the pieces between line feeds: all but the last piece end in one, and
an empty last piece is no line. -/
def linesOfPieces : List Text → List Text
  | [] => []
  | [last] => if last.isEmpty then [] else [last]
  | line :: others => dropReturn line :: linesOfPieces others

/-- The lines of a text. A line ends in a line feed, which a carriage return may
precede. -/
def sourceLines (source : Text) : List Text :=
  linesOfPieces (source.splitOn '\n')

/-- Which part of the program is shown. -/
structure SourceScroll where
  /-- The index of the first line shown. -/
  offset : Nat := 0
  /-- The row that the followed line is kept in; the middle one at first. -/
  targetRow : Option Nat := none
  deriving DecidableEq, Repr

/-- The line that is followed: the one executed last, or else the next one. -/
def focusLine (currentLine : Nat) (nextLine : Option Nat) : Nat :=
  if 0 < currentLine then currentLine else nextLine.getD 0

/-- The part shown in a pane of a given height of a program with `total` lines. -/
def SourceScroll.follow (scroll : SourceScroll) (height total currentLine : Nat)
    (nextLine : Option Nat) : SourceScroll :=
  let visible := visibleHeight height
  let row := min (scroll.targetRow.getD (visible / 2)) (visible - 1)
  let line := focusLine currentLine nextLine
  { offset :=
      if 0 < line && line ≤ total then clampScroll ((line - 1) - row) total visible
      else scroll.offset
    targetRow := some row }

/-- What the pane shows besides the program. -/
structure SourceView where
  /-- The number of the line executed last. -/
  currentLine : Nat
  /-- The number of the next line. -/
  nextLine : Option Nat
  /-- The last step failed. -/
  failed : Bool

/-- The row of a line: its number, a mark on the next line, and its text. The current
line has a background, and a failed one shows the failure alone. -/
def sourceSpans (view : SourceView) (number : Nat) (line : Text) : List Span :=
  let current := number == view.currentLine
  let marker := if view.nextLine == some number then "›".toList else " ".toList
  let label := Text.padLeft 4 (Text.ofNat number) ++ marker
  let spans := highlight line
  if current && view.failed then
    let style := ((Style.ofColor .white).on red).inBold
    ⟨label, (Style.ofColor red).inBold⟩ :: spans.map fun span => { span with style }
  else if current then
    ⟨label, (Style.ofColor peach).inBold⟩ ::
      spans.map fun span => { span with style := span.style.patch (Style.plain.on surface) }
  else ⟨label, .ofColor muted⟩ :: spans

/-- Draws the program from a line on. -/
def drawSource (screen : Screen) (area : Area) (focused : Bool) (offset : Nat)
    (view : SourceView) (lines : List Text) : Screen :=
  let rows := ((lines.zipIdx 1).drop offset).take (visibleHeight area.height)
  screen.drawParagraph area (block " Source ".toList focused) {}
    (rows.map fun (line, number) => sourceSpans view number line)

end Stepwise.Pane
