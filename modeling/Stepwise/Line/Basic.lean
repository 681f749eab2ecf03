import Stepwise.Line.Shape

/-!
# Source lines

A program is the list of its lines. Each line has the kind of statement that its
text looks like; the first shape that fits decides, and a line that fits none is of
the kind `other`.

## Main definitions

* `Stepwise.Line`, `Stepwise.Line.Kind` — a line and the kind of its statement.
* `Stepwise.Line.kindOf` — the kind of a trimmed text.
* `Stepwise.Line.read`, `Stepwise.Line.program` — one line, and all lines of a source.
* `Stepwise.Line.isExecutable` — whether execution stops on a line.
-/

namespace Stepwise

/-- The kinds of statements. -/
inductive Line.Kind where
  | declaration
  | assignment
  | conditional
  | loop
  | functionCall
  | functionDefinition
  | return_
  | output
  | other
  deriving DecidableEq, Repr

/-- A source line. -/
structure Line where
  /-- The number of the line, counted from one. -/
  number : Nat
  kind : Line.Kind
  /-- The text without white space at its ends. -/
  text : Text
  /-- How many blank characters precede the text. -/
  indent : Nat
  deriving DecidableEq, Repr

namespace Line

/-- The label of a kind. -/
def Kind.label : Kind → Text
  | .declaration => "declaration".toList
  | .assignment => "assignment".toList
  | .conditional => "conditional".toList
  | .loop => "loop".toList
  | .functionCall => "function-call".toList
  | .functionDefinition => "function-definition".toList
  | .return_ => "return".toList
  | .output => "output".toList
  | .other => "other".toList

/-- The kind of a trimmed text. A declaration also looks like an assignment, so it
is recognized first. -/
def kindOf (text : Text) : Kind :=
  if text.isEmpty || Text.isComment text then .other
  else if isDeclaration text then .declaration
  else if (assignmentParts? text).isSome then .assignment
  else if isConditional text then .conditional
  else if isLoop text then .loop
  else if (functionName? text).isSome then .functionDefinition
  else if (returnExpression? text).isSome then .return_
  else if (outputArguments? text).isSome then .output
  else if (callName? text).isSome then .functionCall
  else .other

/-- The line with the given number and raw text. -/
def read (number : Nat) (raw : Text) : Line :=
  let text := raw.trim
  { number
    kind := kindOf text
    text
    indent := (raw.takeWhile Text.isBlank).length }

/-- Reads raw lines, numbered from `first` on. -/
def readFrom (first : Nat) : List Text → List Line
  | [] => []
  | raw :: others => read first raw :: readFrom (first + 1) others

/-- All lines of a source, blank ones and comments included. -/
def program (source : Text) : List Line :=
  readFrom 1 (source.splitOn '\n')

/-- Execution passes over blank lines, comments and lines of braces with at most a
semicolon at the end; it stops on all others. -/
def isExecutable (line : Line) : Bool :=
  let text := line.text
  let body := if text.getLast? == some ';' then text.dropLast else text
  !(text.isEmpty || Text.isComment text ||
    body.all fun c => c == '{' || c == '}' || Text.isBlank c)

end Line

end Stepwise
