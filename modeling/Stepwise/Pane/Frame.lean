import Stepwise.Screen.Grid
import Stepwise.Value

/-!
# What panes share

## Main definitions

* `Stepwise.Pane.block` — the block of a pane, which shows the focus.
* `Stepwise.Pane.visibleHeight` — how many rows a pane shows.
* `Stepwise.Pane.clampScroll` — the first row shown of a scrolled list.
* `Stepwise.Pane.drawItems` — a scrolled list of rows, or a placeholder.
-/

namespace Stepwise.Pane

open Screen (Area Block Item Style)
open Screen.Theme (muted yellow)

/-- The block of a pane. The focused one has a bold border of its own colour. -/
def block (title : Text) (focused : Bool) : Block where
  title
  style := if focused then (Style.ofColor yellow).inBold else .ofColor muted

/-- How many rows a pane of a given height shows between its borders, at least one. -/
def visibleHeight (height : Nat) : Nat :=
  max (height - 2) 1

/-- The first row shown, such that the last page is full. -/
def clampScroll (offset total visible : Nat) : Nat :=
  if visible < total then min offset (total - visible) else 0

/-- The first row shown of a list of `total` rows in a pane of a given height. The
request stays as it is while there is nothing to scroll. -/
def scrollTo (offset total height : Nat) : Nat :=
  if total = 0 then offset else clampScroll offset total (visibleHeight height)

/-- Draws the rows from `offset` on, or a placeholder if there are none. -/
def drawItems (screen : Screen) (area : Area) (title : Text) (focused : Bool)
    (placeholder : Text) (padding offset : Nat) (items : List Item) : Screen :=
  if items.isEmpty then
    screen.drawParagraph area (block title focused) (.ofColor muted) [[⟨placeholder, {}⟩]]
  else
    screen.drawList area (block title focused) padding
      ((items.drop offset).take (visibleHeight area.height))

end Stepwise.Pane
