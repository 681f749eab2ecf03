import Stepwise.Screen.Style
import Stepwise.Text.Scan
import Stepwise.Text.Word

/-!
# Highlighting

A line of the program is shown in spans of colour: words, string literals, comments
and single characters. The spans make up the line.

## Main definitions

* `Stepwise.Pane.wordStyle` — the style of a word.
* `Stepwise.Pane.splitLiteral` — the rest of a string literal, and what follows it.
* `Stepwise.Pane.highlight` — the spans of a line.

## Main results

* `Stepwise.Pane.splitLiteral_append` — splitting a literal off loses nothing.
-/

namespace Stepwise.Pane

open Screen (Span Style)
open Screen.Theme

/-- The words that structure a program. -/
def structureWords : List Text :=
  ["let".toList, "const".toList, "var".toList, "function".toList, "async".toList,
    "return".toList, "if".toList, "else".toList, "while".toList, "for".toList, "do".toList,
    "of".toList, "in".toList, "break".toList, "continue".toList, "new".toList]

/-- The words that are values. -/
def literalWords : List Text :=
  ["true".toList, "false".toList, "null".toList, "undefined".toList]

/-- The names that are given. -/
def builtinWords : List Text :=
  ["console".toList, "Math".toList]

/-- The style of a word; `called` tells that a parenthesis follows it. -/
def wordStyle (word : Text) (called : Bool) : Style :=
  if structureWords.contains word then (Style.ofColor blue).inBold
  else if literalWords.contains word then .ofColor peach
  else if builtinWords.contains word then .ofColor teal
  else if word.head?.any Char.isDigit then .ofColor peach
  else if called then .ofColor yellow
  else .ofColor text

/-- The span of the word read so far, nearest character first, if there is one. -/
def wordSpan (word : List Char) (called : Bool) : List Span :=
  if word.isEmpty then [] else [⟨word.reverse, wordStyle word.reverse called⟩]

/-- The rest of a literal up to its closing quote, and what follows it. A backslash
takes the next character with it. -/
def splitLiteral (quote : Char) : Text → Text × Text
  | [] => ([], [])
  | c :: rest =>
    if c = quote then ([c], rest)
    else if c = '\\' then
      match rest with
      | [] => ([c], [])
      | d :: rest =>
        let (literal, after) := splitLiteral quote rest
        (c :: d :: literal, after)
    else
      let (literal, after) := splitLiteral quote rest
      (c :: literal, after)

/-- Splitting a literal off loses nothing. -/
theorem splitLiteral_append (quote : Char) (text : Text) :
    (splitLiteral quote text).1 ++ (splitLiteral quote text).2 = text := by
  fun_induction splitLiteral quote text <;> simp_all

theorem length_splitLiteral_le (quote : Char) (text : Text) :
    (splitLiteral quote text).2.length ≤ text.length := by
  have h := congrArg List.length (splitLiteral_append quote text)
  rw [List.length_append] at h
  omega

/-- The characters that open and close groups. -/
def isBracket (c : Char) : Bool :=
  Text.Brackets.all.opens c || Text.Brackets.all.closes c

/-- The spans of a line of which `word` was read last, nearest character first. -/
def highlightFrom (word : List Char) : Text → List Span
  | [] => wordSpan word false
  | c :: rest =>
    -- A comment reaches to the end of the line.
    if c == '/' && rest.head? == some '/' then
      wordSpan word false ++ [⟨c :: rest, .ofColor muted⟩]
    -- A literal ends the word before it and is passed as a whole.
    else if Text.isQuote c then
      let split := splitLiteral c rest
      wordSpan word false ++ ⟨c :: split.1, .ofColor peach⟩ :: highlightFrom [] split.2
    else if Text.isWordChar c then highlightFrom (c :: word) rest
    else
      wordSpan word (c == '(') ++
        ⟨[c], .ofColor (if isBracket c then blue else text)⟩ :: highlightFrom [] rest
termination_by text => text.length
decreasing_by
  all_goals simp only [List.length_cons]
  · exact Nat.lt_succ_of_le (length_splitLiteral_le _ _)
  · omega
  · omega

/-- The spans of a line. -/
def highlight (line : Text) : List Span :=
  highlightFrom [] line

end Stepwise.Pane
