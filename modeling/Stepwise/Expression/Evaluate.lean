import Stepwise.Environment
import Stepwise.Expression.Split
import Stepwise.Json.Reader
import Stepwise.Text.Word

/-!
# The value of an expression

An expression is a fragment of text. A fragment that is a literal or a name has the
value of that; any other fragment is split at one operator, both sides are
evaluated, and the operator is applied. Parentheses do not group. A fragment that
nothing applies to stands for itself, so evaluation never fails.

## Main definitions

* `Stepwise.Expression.stringLiteral?`, `numberLiteral?`, `keywordLiteral?`,
  `structuredLiteral?` — the literals.
* `Stepwise.Expression.atom?` — the value of a literal or a name.
* `Stepwise.Expression.combine` — the value of an arithmetic operator.
* `Stepwise.Expression.evaluate` — the value of a fragment in an environment.
-/

namespace Stepwise.Expression

/-! ### Literals -/

/-- A text that can stand between two `quote` characters: each of its own is escaped,
and it does not end in the middle of an escape. -/
def isLiteralBody (quote : Char) : Text → Bool
  | [] => true
  | ['\\'] => false
  | '\\' :: _ :: rest => isLiteralBody quote rest
  | c :: rest => c != quote && isLiteralBody quote rest

/-- The contents of a text that is one string literal. -/
def stringLiteral? : Text → Option Text
  | [] => none
  | quote :: rest =>
    if Text.isQuote quote && rest.getLast? == some quote && isLiteralBody quote rest.dropLast then
      some rest.dropLast
    else none

/-- A non-empty run of digits. -/
def isDigits (text : Text) : Bool :=
  !text.isEmpty && text.all Char.isDigit

/-- The number of a text that is an optionally signed integer or decimal with digits
on both sides of its point. -/
def numberLiteral? (text : Text) : Option Float :=
  let unsigned := (Double.splitSign text).2
  let whole := unsigned.takeWhile (· != '.')
  let wellFormed := isDigits whole && match unsigned.drop whole.length with
    | [] => true
    | _ :: fraction => isDigits fraction
  if wellFormed then Double.ofText? text else none

/-- The value of a text that is one of the four named literals. -/
def keywordLiteral? (text : Text) : Option Value :=
  if text = "true".toList then some (.bool true)
  else if text = "false".toList then some (.bool false)
  else if text = "null".toList then some .null
  else if text = "undefined".toList then some .undefined
  else none

/-- The value of a text in square or curly brackets: an array or an object, or else
the text itself. -/
def structuredLiteral? (text : Text) : Option Value :=
  let first := text.head?
  let last := text.getLast?
  if (first == some '[' && last == some ']') || (first == some '{' && last == some '}') then
    match Json.parse? text with
    | some json => some (.structured json)
    | none => some (.symbolic text)
  else none

/-- The value of a literal or a name. -/
def atom? (env : Environment) (text : Text) : Option Value :=
  ((stringLiteral? text).map Value.str).or <|
    ((numberLiteral? text).map Value.number).or <|
      (keywordLiteral? text).or <|
        (structuredLiteral? text).or <|
          if Text.isWord text then some ((env.valueOf? text).getD (.unresolved text)) else none

/-! ### Operators -/

/-- The value of an arithmetic operator that splits `text`: numbers are computed, a
sum with anything else concatenates, and all else stands for itself. -/
def combine (text : Text) (op : Arithmetic) (left right : Value) : Value :=
  match left, right with
  | .number a, .number b => .number (op.apply a b)
  | left, right => if op = .add then .str (left.display ++ right.display) else .symbolic text

/-- The value of a fragment in an environment. -/
def evaluate (env : Environment) (fragment : Text) : Value :=
  let text := fragment.trim
  match atom? env text with
  | some value => value
  | none =>
    -- Comparisons bind looser than arithmetic, so they are looked for first.
    match _h : splitComparison text with
    | some (left, op, right) => .bool (op.holds (evaluate env left) (evaluate env right))
    | none =>
      match _h' : splitArithmetic text with
      | some (left, op, right) => combine text op (evaluate env left) (evaluate env right)
      | none => .symbolic text
termination_by fragment.length
decreasing_by
  · exact Nat.lt_of_lt_of_le (length_of_splitComparison _h).1 (Text.length_trim_le _)
  · exact Nat.lt_of_lt_of_le (length_of_splitComparison _h).2 (Text.length_trim_le _)
  · exact Nat.lt_of_lt_of_le (length_of_splitArithmetic _h').1 (Text.length_trim_le _)
  · exact Nat.lt_of_lt_of_le (length_of_splitArithmetic _h').2 (Text.length_trim_le _)

end Stepwise.Expression
