import Stepwise.Text.Basic

/-!
# Scanning past literals and groups

A scan walks over a text from left to right and tells which of its characters
stand at the top level: outside string literals and outside bracket groups. The
delimiters of an outermost literal or group belong to the top level themselves,
and so does a closing bracket that closes nothing.

## Main definitions

* `Stepwise.Text.Brackets` — which characters open and close groups.
* `Stepwise.Text.ScanState` — inside how many groups, and in which literal.
* `Stepwise.Text.Spot` — a character of a text together with both sides of it.
* `Stepwise.Text.topLevel` — the spots at the top level.
* `Stepwise.Text.splitTopLevel`, `cutStatement` — splitting and cutting there.
* `Stepwise.Text.parenGroup`, `firstParenGroup`, `matchingParen` — the contents of
  a parenthesized group.

## Main results

* `Stepwise.Text.text_of_mem_topLevel` — every spot is a place of the scanned text.
-/

namespace Stepwise.Text

/-- The characters that delimit string literals. -/
def isQuote (c : Char) : Bool :=
  c == '\x22' || c == '\x27' || c == '\x60'

/-- A choice of the characters that open a group and of those that close one. -/
structure Brackets where
  /-- The character opens a group. -/
  opens : Char → Bool
  /-- The character closes a group. -/
  closes : Char → Bool

/-- Round, square and curly brackets, any closer matching any opener. -/
def Brackets.all : Brackets where
  opens c := c == '(' || c == '[' || c == '{'
  closes c := c == ')' || c == ']' || c == '}'

/-- Parentheses only. -/
def Brackets.round : Brackets where
  opens c := c == '('
  closes c := c == ')'

/-- Where a scan stands: outside literals, or in the literal that `quote` opened,
where `escaped` tells that the next character is taken as it is. Either way
`depth` groups are open. -/
inductive ScanState where
  | code (depth : Nat)
  | literal (depth : Nat) (quote : Char) (escaped : Bool)
  deriving DecidableEq, Repr

namespace ScanState

/-- The state at the start of a text. -/
def start : ScanState := .code 0

/-- The state after one more character. -/
def step (brackets : Brackets) : ScanState → Char → ScanState
  | .code depth, c =>
    if isQuote c then .literal depth c false
    else if brackets.opens c then .code (depth + 1)
    else if brackets.closes c then .code (depth - 1)
    else .code depth
  | .literal depth quote true, _ => .literal depth quote false
  | .literal depth quote false, c =>
    if c == '\\' then .literal depth quote true
    else if c == quote then .code depth
    else .literal depth quote false

/-- Whether a character met in this state belongs to the top level. -/
def shows (brackets : Brackets) : ScanState → Char → Bool
  | .code depth, c => depth == 0 || (depth == 1 && brackets.closes c)
  | .literal depth quote escaped, c => !escaped && c == quote && depth == 0

end ScanState

/-- A character of a text together with the characters before it, nearest first,
and the text after it. -/
structure Spot where
  /-- The characters before the spot, nearest first. -/
  before : List Char
  /-- The character at the spot. -/
  char : Char
  /-- The text after the spot. -/
  after : Text
  deriving DecidableEq, Repr

namespace Spot

/-- The text to the left of the spot. -/
def left (spot : Spot) : Text := spot.before.reverse

/-- The text from the spot on. -/
def rest (spot : Spot) : Text := spot.char :: spot.after

/-- The whole text that the spot lies in. -/
def text (spot : Spot) : Text := spot.left ++ spot.rest

/-- The position of the spot in bytes. -/
def offset (spot : Spot) : Nat := byteLength spot.before

end Spot

/-- The spots of `text` that belong to the top level, when the scan stands in
`state` and has `before` behind it. -/
def scanFrom (brackets : Brackets) (state : ScanState) (before : List Char) :
    Text → List Spot
  | [] => []
  | c :: text =>
    let spots := scanFrom brackets (state.step brackets c) (c :: before) text
    if state.shows brackets c then ⟨before, c, text⟩ :: spots else spots

/-- The spots of a text outside literals and outside groups of the given brackets. -/
def scan (brackets : Brackets) (text : Text) : List Spot :=
  scanFrom brackets .start [] text

/-- The spots of a text outside literals and outside all bracket groups. -/
def topLevel (text : Text) : List Spot :=
  scan .all text

theorem text_of_mem_scanFrom {brackets : Brackets} {state : ScanState} {before : List Char}
    {text : Text} {spot : Spot} (h : spot ∈ scanFrom brackets state before text) :
    spot.text = before.reverse ++ text := by
  induction text generalizing state before with
  | nil => simp [scanFrom] at h
  | cons c text ih =>
    simp only [scanFrom] at h
    split at h
    · rcases List.mem_cons.mp h with rfl | h
      · simp [Spot.text, Spot.left, Spot.rest]
      · simpa using ih h
    · simpa using ih h

/-- Every spot of the top level is a place of the scanned text. -/
theorem text_of_mem_topLevel {text : Text} {spot : Spot} (h : spot ∈ topLevel text) :
    spot.text = text := by
  simpa using text_of_mem_scanFrom h

/-! ### Splitting and cutting -/

/-- The pieces of a text between the separators at the top level, when the scan
stands in `state`. -/
def splitFrom (separator : Char) (state : ScanState) : Text → List Text
  | [] => [[]]
  | c :: text =>
    let pieces := splitFrom separator (state.step .all c) text
    if state.shows .all c && c == separator then [] :: pieces
    else match pieces with
      | [] => [[c]]
      | piece :: others => (c :: piece) :: others

/-- The pieces of a text between the separators at the top level. -/
def splitTopLevel (separator : Char) (text : Text) : List Text :=
  splitFrom separator .start text

/-- A spot where a statement ends: a semicolon or the start of a line comment. -/
def endsStatement (spot : Spot) : Bool :=
  spot.char == ';' || (spot.char == '/' && spot.after.head? == some '/')

/-- The statement at the start of a line, up to its first semicolon or line comment
at the top level and without trailing white space. -/
def cutStatement (text : Text) : Text :=
  match (topLevel text).find? endsStatement with
  | some spot => trimRight spot.left
  | none => trimRight text

/-- A comment line, or a line within a block comment. -/
def isComment : Text → Bool
  | '/' :: '/' :: _ => true
  | '/' :: '*' :: _ => true
  | '*' :: _ => true
  | _ => false

/-! ### Parenthesized groups -/

/-- The spot that closes the group with which a text starts. -/
def closingSpot? : Text → Option Spot
  | '(' :: text =>
    match scan .round ('(' :: text) with
    | _ :: close :: _ => some close
    | _ => none
  | _ => none

/-- The contents of the parenthesized group with which a text starts. -/
def parenGroup (text : Text) : Option Text :=
  (closingSpot? text).map fun close => close.left.drop 1

/-- The contents of the group that the first opening parenthesis of a text starts. -/
def firstParenGroup (text : Text) : Option Text :=
  parenGroup (text.dropWhile (· != '('))

/-- The text from a given byte position on. -/
def dropBytes : Nat → Text → Text
  | 0, text => text
  | _, [] => []
  | n + 1, c :: text => dropBytes (n + 1 - c.utf8Size) text

/-- The byte position of the parenthesis that closes the one at byte position
`opening`. -/
def matchingParen (text : Text) (opening : Nat) : Option Nat :=
  (closingSpot? (dropBytes opening text)).map fun close => opening + close.offset

end Stepwise.Text
