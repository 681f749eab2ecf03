import Stepwise.Screen.Style

/-!
# The screen

A screen is a grid of styled cells. Drawing lays characters and styles over the
cells of an area; what falls outside the grid is lost.

## Main definitions

* `Stepwise.Screen.Area`, `splitAt` — rectangles, and lengths split by percentages.
* `Stepwise.Screen.Cell`, `Stepwise.Screen` — cells and the grid of them.
* `Stepwise.Screen.tint`, `writeLine`, `drawBlock` — the ways of drawing.
* `Stepwise.Screen.drawParagraph`, `drawList` — a text or a list in a block.
-/

namespace Stepwise

namespace Screen

/-! ### Areas -/

/-- A rectangle of cells. -/
structure Area where
  /-- The first column. -/
  x : Nat
  /-- The first row. -/
  y : Nat
  width : Nat
  height : Nat
  deriving DecidableEq, Repr

namespace Area

/-- The area without a margin of one cell on each side. -/
def inner (area : Area) : Area where
  x := area.x + 1
  y := area.y + 1
  width := area.width - 2
  height := area.height - 2

/-- The area without its first columns. -/
def dropColumns (area : Area) (n : Nat) : Area :=
  { area with x := area.x + n, width := area.width - n }

/-- The area has no cells. -/
def isEmpty (area : Area) : Bool :=
  area.width == 0 || area.height == 0

/-- The part of the area from one column up to another. -/
def columns (area : Area) (first last : Nat) : Area :=
  { area with x := area.x + first, width := last - first }

/-- The part of the area from one row up to another. -/
def rows (area : Area) (first last : Nat) : Area :=
  { area with y := area.y + first, height := last - first }

end Area

/-- The place where a given percentage of a length ends, rounded to the nearest. -/
def portion (length percent : Nat) : Nat :=
  (2 * length * percent + 100) / 200

/-! ### Cells -/

/-- A cell of the screen. -/
structure Cell where
  /-- The character shown. -/
  char : Char := ' '
  fg : Color := .default
  /-- The colour behind it. -/
  bg : Color := .default
  bold : Bool := false
  deriving DecidableEq, Repr

/-- The cell with a style laid over it. -/
def Cell.patch (cell : Cell) (style : Style) : Cell :=
  { cell with
    fg := style.fg.getD cell.fg
    bg := style.bg.getD cell.bg
    bold := cell.bold || style.bold }

/-- The cell with another character in a style laid over it. -/
def Cell.put (cell : Cell) (char : Char) (style : Style) : Cell :=
  { cell with char }.patch style

end Screen

/-- A grid of cells. -/
structure Screen where
  /-- The rows from top to bottom. -/
  rows : List (List Screen.Cell)
  deriving DecidableEq, Repr

namespace Screen

/-- The screen with nothing on it. -/
def blank (width height : Nat) : Screen :=
  ⟨List.replicate height (List.replicate width {})⟩

/-- Changes the cells of an area, each by its column and row within the area. -/
def mapArea (screen : Screen) (area : Area) (f : Nat → Nat → Cell → Cell) : Screen :=
  ⟨screen.rows.mapIdx fun y row =>
    if area.y ≤ y && y < area.y + area.height then
      row.mapIdx fun x cell =>
        if area.x ≤ x && x < area.x + area.width then f (x - area.x) (y - area.y) cell else cell
    else row⟩

/-- Lays a style over an area. -/
def tint (screen : Screen) (area : Area) (style : Style) : Screen :=
  screen.mapArea area fun _ _ cell => cell.patch style

/-! ### Lines of text -/

/-- Spans character by character. -/
def glyphs (spans : List Span) : List (Char × Style) :=
  spans.flatMap fun span => span.text.map (·, span.style)

/-- Lays glyphs over the cells from a column on. -/
def overlay : Nat → List (Char × Style) → List Cell → List Cell
  | _, _, [] => []
  | _, [], row => row
  | 0, (char, style) :: others, cell :: row => cell.put char style :: overlay 0 others row
  | x + 1, others, cell :: row => cell :: overlay x others row

/-- Writes a line of spans at a place, cut at a width. -/
def writeLine (screen : Screen) (x y width : Nat) (spans : List Span) : Screen :=
  ⟨screen.rows.modify y (overlay x ((glyphs spans).take width))⟩

/-- Writes lines one below the other into an area, as far as they fit. -/
def writeLines (screen : Screen) (area : Area) (lines : List (List Span)) : Screen :=
  (lines.take area.height).zipIdx.foldl
    (fun screen (line, i) => screen.writeLine area.x (area.y + i) area.width line) screen

/-! ### Blocks -/

/-- The character of a border at a place of an area. Corners come before sides, the
bottom and the right side before the top and the left one, and of the corners the top
left one comes first. -/
def borderChar (width height x y : Nat) : Option Char :=
  let left := x == 0
  let top := y == 0
  let right := x + 1 == width
  let bottom := y + 1 == height
  if left && top then some '┌'
  else if left && bottom then some '└'
  else if right && top then some '┐'
  else if right && bottom then some '┘'
  else if bottom || top then some '─'
  else if right || left then some '│'
  else none

/-- A bordered block with a title. -/
structure Block where
  /-- The title on the top side. -/
  title : Text
  /-- The style of border and title. -/
  style : Style

/-- Draws a block; the title starts in the second column and leaves the last one. -/
def drawBlock (screen : Screen) (area : Area) (block : Block) : Screen :=
  if area.isEmpty then screen
  else
    let bordered := screen.mapArea area fun x y cell =>
      match borderChar area.width area.height x y with
      | some char => cell.put char block.style
      | none => cell
    bordered.writeLine (area.x + 1) area.y (area.width - 2) [⟨block.title, block.style⟩]

/-- Draws a block and lines in it, in a style that lies under both. -/
def drawParagraph (screen : Screen) (area : Area) (block : Block) (style : Style)
    (lines : List (List Span)) : Screen :=
  (((screen.tint area style).drawBlock area block).tint area.inner style).writeLines
    area.inner lines

/-- An item of a list: a line, and the style of its row. -/
structure Item where
  /-- The line of the item. -/
  spans : List Span
  /-- The style of the whole row. -/
  style : Style := .plain

/-- Draws a block and a list of items in it, `padding` columns from its left side. -/
def drawList (screen : Screen) (area : Area) (block : Block) (padding : Nat)
    (items : List Item) : Screen :=
  let list := area.inner.dropColumns padding
  let framed := screen.drawBlock area block
  if list.isEmpty then framed
  else
    (items.take list.height).zipIdx.foldl
      (fun screen (item, i) =>
        (screen.tint (list.rows i (i + 1)) item.style).writeLine list.x (list.y + i) list.width
          item.spans) framed

/-- The symbols of each row. -/
def symbols (screen : Screen) : List Text :=
  screen.rows.map fun row => row.map Cell.char

end Screen

end Stepwise
