import Stepwise.Text.Scan
import Stepwise.Text.Word

/-!
# Shapes of statements

Each function recognizes one shape of statement in the text of a line and gives the
parts that matter.

## Main definitions

* `Stepwise.Line.declarationKeyword?` — the keyword of a declaration.
* `Stepwise.Line.assignmentParts?` — the name and the right-hand side of an assignment.
* `Stepwise.Line.dropClosingBraces` — the text after leading closing braces.
* `Stepwise.Line.functionName?` — the name of a function definition.
* `Stepwise.Line.returnExpression?` — what follows `return`.
* `Stepwise.Line.outputArguments?` — the arguments of an output call.
* `Stepwise.Line.callName?` — the name of a call.
-/

namespace Stepwise.Line

open Text (afterKeyword afterLead isBlank isWordChar leadingWord parenGroup)

/-- Whether a text starts with white space. -/
def startsBlank (text : Text) : Bool :=
  text.head?.any isBlank

/-! ### Declarations and assignments -/

/-- The words that declare a name. -/
inductive Keyword where
  | let_
  | const_
  | var_
  deriving DecidableEq, Repr

/-- The text of a declaring word. -/
def Keyword.text : Keyword → Text
  | .let_ => "let".toList
  | .const_ => "const".toList
  | .var_ => "var".toList

/-- The declaring words. -/
def Keyword.all : List Keyword := [.let_, .const_, .var_]

/-- The declaring word at the start of a text, and what follows it. -/
def declarationKeyword? (text : Text) : Option (Keyword × Text) :=
  Keyword.all.findSome? fun keyword => (afterKeyword keyword.text text).map (keyword, ·)

/-- The text declares a name: white space and a word follow a declaring word. -/
def isDeclaration (text : Text) : Bool :=
  match declarationKeyword? text with
  | some (_, rest) => startsBlank rest && (Text.trimLeft rest).head?.any isWordChar
  | none => false

/-- The name and the right-hand side of a text that assigns: a word that declares
nothing, and an equals sign that starts neither a comparison nor an arrow. -/
def assignmentParts? (text : Text) : Option (Text × Text) :=
  match leadingWord text with
  | none => none
  | some (name, rest) =>
    if (Keyword.all.map Keyword.text).contains name then none
    else match Text.trimLeft rest with
      | '=' :: right =>
        if right.head? == some '=' || right.head? == some '>' then none else some (name, right)
      | _ => none

/-! ### Control -/

/-- The text without leading closing braces and white space. -/
def dropClosingBraces (text : Text) : Text :=
  text.dropWhile fun c => c == '}' || isBlank c

/-- The text is a branch of a conditional. -/
def isConditional (text : Text) : Bool :=
  let text := dropClosingBraces text
  (afterKeyword "if".toList text).isSome || (afterKeyword "else".toList text).isSome

/-- The text starts a loop. -/
def isLoop (text : Text) : Bool :=
  ["for".toList, "while".toList, "do".toList].any fun keyword =>
    (afterKeyword keyword text).isSome

/-- The name of a function definition. -/
def functionName? (text : Text) : Option Text :=
  let text := ((afterKeyword "async".toList text).map Text.trimLeft).getD text
  match afterKeyword "function".toList text with
  | none => none
  | some rest =>
    if startsBlank rest then (leadingWord (Text.trimLeft rest)).map Prod.fst else none

/-- The text after `return`, possibly empty. -/
def returnExpression? (text : Text) : Option Text :=
  (afterKeyword "return".toList text).filter fun rest =>
    rest.isEmpty || startsBlank rest || rest.head? == some ';'

/-! ### Calls -/

/-- The methods of the console that print. -/
def outputMethods : List Text :=
  ["log".toList, "warn".toList, "error".toList, "info".toList]

/-- The text from the opening parenthesis on, if an output call starts here. -/
def outputCall? (text : Text) : Option Text :=
  match afterLead "console.".toList text with
  | none => none
  | some rest =>
    outputMethods.findSome? fun method =>
      (afterLead method rest).filter fun rest => rest.head? == some '('

/-- The text before the last occurrence of a character. -/
def beforeLast? (c : Char) (text : Text) : Option Text :=
  match text.reverse.dropWhile (· != c) with
  | [] => none
  | _ :: before => some before.reverse

/-- The argument text of the first output call. A call whose parenthesis is not
closed reaches up to the last closing parenthesis of the line. -/
def outputArguments? : Text → Option Text
  | [] => none
  | c :: text =>
    match outputCall? (c :: text) with
    | some call => (parenGroup call).or (beforeLast? ')' (call.drop 1))
    | none => outputArguments? text

/-- The word before the first parenthesis that follows a word and has a closing
parenthesis after it; `before` is what has been passed, nearest first. -/
def callNameFrom (before : List Char) : Text → Option Text
  | [] => none
  | c :: text =>
    let word := before.takeWhile isWordChar
    if c == '(' && !word.isEmpty && text.contains ')' then some word.reverse
    else callNameFrom (c :: before) text

/-- The name of the first call on a line. -/
def callName? (text : Text) : Option Text :=
  callNameFrom [] text

end Stepwise.Line
