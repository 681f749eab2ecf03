import Stepwise.Text.Basic

/-!
# Colours and styles

## Main definitions

* `Stepwise.Screen.Color` — the colours of cells.
* `Stepwise.Screen.Style` — what a piece of text sets; the rest shows through.
* `Stepwise.Screen.Span` — a text in one style.
* `Stepwise.Screen.Theme` — the colours of the panes, named for what they mark.
-/

namespace Stepwise.Screen

/-- The colour of a cell or of its background. -/
inductive Color where
  /-- Whatever the terminal shows by itself. -/
  | default
  | black
  | white
  | rgb (red green blue : Nat)
  deriving DecidableEq, Repr

/-- What a piece of text sets: a colour that is not given shows through. -/
structure Style where
  /-- The colour of the characters. -/
  fg : Option Color := none
  /-- The colour behind them. -/
  bg : Option Color := none
  bold : Bool := false
  deriving DecidableEq, Repr

namespace Style

/-- The style that sets nothing. -/
def plain : Style := {}

/-- The style that only sets the colour of the characters. -/
def ofColor (color : Color) : Style := { fg := some color }

/-- The same style in bold. -/
def inBold (style : Style) : Style := { style with bold := true }

/-- The same style on a background. -/
def on (style : Style) (color : Color) : Style := { style with bg := some color }

/-- A style with another one laid over it. -/
def patch (style upper : Style) : Style where
  fg := upper.fg.or style.fg
  bg := upper.bg.or style.bg
  bold := style.bold || upper.bold

end Style

/-- A text in one style. -/
structure Span where
  text : Text
  style : Style := .plain
  deriving DecidableEq, Repr

namespace Theme

/-- The colour of ordinary text. -/
def text : Color := .rgb 205 214 244

/-- The colour of placeholders, line numbers, separators and unfocused borders. -/
def muted : Color := .rgb 108 112 134

/-- The background of the status bar and of the current line. -/
def surface : Color := .rgb 50 50 70

/-- The colour of keywords, brackets, progress bars, loops and the paused badge. -/
def blue : Color := .rgb 137 180 250

/-- The colour of literals, numbers, loop values and the running badge. -/
def peach : Color := .rgb 250 179 135

/-- The colour of string values, active loops, output and the complete badge. -/
def green : Color := .rgb 166 227 161

/-- The colour of errors. -/
def red : Color := .rgb 243 139 168

/-- The colour of the focused border, calls and loop variables. -/
def yellow : Color := .rgb 249 226 175

/-- The colour of built-in names, structured values and kinds. -/
def teal : Color := .rgb 148 226 213

/-- The colour of changed variables and assignments. -/
def pink : Color := .rgb 245 194 231

/-- The colour of conditions. -/
def mauve : Color := .rgb 203 166 247

end Theme

end Stepwise.Screen
