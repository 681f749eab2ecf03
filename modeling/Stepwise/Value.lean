import Stepwise.Double.Read
import Stepwise.Json.Printer

/-!
# Values

The values that expressions have and that variables hold. Text that cannot be
interpreted is a value too: it stands for itself.

## Main definitions

* `Stepwise.Value`, `Stepwise.Value.Kind` — values and the label of their kind.
* `Stepwise.Value.display` — the text printed to the console.
* `Stepwise.Value.repr` — the text shown in the timeline, with strings quoted.
* `Stepwise.Value.truthy`, `toNumber`, `text?`, `isNullish` — the readings of a value
  in conditions and comparisons.
* `Stepwise.Value.sameAs` — the equality by which changes are detected.
-/

namespace Stepwise

/-! ### The text of numbers -/

namespace Number

/-- Numbers from `10 ^ -6` up to `10 ^ 21` are written without an exponent, whole
ones with all their digits. -/
def format : Double.Format where
  leastPoint := -5
  greatestPoint := 21
  keepsPoint := false
  exactWhole := true
  tie := .up

/-- The text of a number. Both zeros are written alike. -/
def display (x : Float) : Text :=
  if x.isNaN then "NaN".toList
  else if x.isInf then (if 0.0 < x then "Infinity".toList else "-Infinity".toList)
  else if x == 0.0 then "0".toList
  else format.finite x

/-- The number that a text stands for: none at all stands for zero, and a text that
is not a decimal for no number. -/
def ofText (text : Text) : Float :=
  let trimmed := text.trim
  if trimmed.isEmpty then 0.0
  else if trimmed = "Infinity".toList || trimmed = "+Infinity".toList then Double.infinity
  else if trimmed = "-Infinity".toList then -Double.infinity
  else (Double.ofText? trimmed).getD Double.nan

end Number

/-! ### Values -/

/-- A value of the snippet language. -/
inductive Value where
  | number (x : Float)
  /-- A string, without its delimiters. -/
  | str (text : Text)
  | bool (b : Bool)
  /-- The literal `null`. -/
  | null
  /-- The literal `undefined`, also the value of a variable declared without one. -/
  | undefined
  /-- An array or an object. -/
  | structured (json : Json)
  /-- A text that could not be interpreted. -/
  | symbolic (text : Text)
  /-- The name of a variable that is not bound. -/
  | unresolved (name : Text)
  deriving Inhabited

namespace Value

/-- The kind of a value. -/
inductive Kind where
  | number
  | string
  | boolean
  | null
  | undefined
  | array
  | object
  | symbolic
  deriving DecidableEq, Repr

/-- The label of a kind. -/
def Kind.label : Kind → Text
  | .number => "number".toList
  | .string => "string".toList
  | .boolean => "boolean".toList
  | .null => "null".toList
  | .undefined => "undefined".toList
  | .array => "array".toList
  | .object => "object".toList
  | .symbolic => "symbolic".toList

/-- The kind of a value. -/
def kind : Value → Kind
  | .number _ => .number
  | .str _ => .string
  | .bool _ => .boolean
  | .null => .null
  | .undefined => .undefined
  | .structured (.arr _) => .array
  | .structured _ => .object
  | .symbolic _ | .unresolved _ => .symbolic

/-- The number, if the value is one. -/
def number? : Value → Option Float
  | .number x => some x
  | _ => none

/-- The text of a string or of an uninterpreted fragment. -/
def text? : Value → Option Text
  | .str text | .symbolic text => some text
  | _ => none

/-- The values that stand for the absence of one. -/
def isNullish : Value → Bool
  | .null | .undefined | .unresolved _ => true
  | _ => false

/-- Whether a condition with this value holds. -/
def truthy : Value → Bool
  | .number x => !(x == 0.0) && !x.isNaN
  | .str text | .symbolic text => !text.isEmpty
  | .bool b => b
  | .null | .undefined | .unresolved _ => false
  | .structured _ => true

/-- The number that a value counts as in comparisons. -/
def toNumber : Value → Float
  | .number x => x
  | .bool b => if b then 1.0 else 0.0
  | .null => 0.0
  | .str text | .symbolic text => Number.ofText text
  | .undefined | .unresolved _ | .structured _ => Double.nan

/-- The text of a value as printed to the console. -/
def display : Value → Text
  | .number x => Number.display x
  | .str text | .symbolic text => text
  | .bool b => Json.ofBool b
  | .null => "null".toList
  | .undefined => "undefined".toList
  | .structured json => json.compact
  | .unresolved name => "<undefined: ".toList ++ name ++ [ '>' ]

/-- The text of a value as a literal: strings are quoted, and a number that is not
finite is written as `null`. -/
def repr : Value → Text
  | .number x => if x.isNaN || x.isInf then "null".toList else Number.display x
  | .str text | .symbolic text => Json.quoted text
  | .unresolved name => Json.quoted (display (.unresolved name))
  | value => display value

/-- The same kind of value with the same contents; `NaN` is the same as itself. -/
def sameAs : Value → Value → Bool
  | .number x, .number y => x == y || (x.isNaN && y.isNaN)
  | .str s, .str t => s == t
  | .bool a, .bool b => a == b
  | .null, .null => true
  | .undefined, .undefined => true
  | .structured a, .structured b => a.sameAs b
  | .symbolic s, .symbolic t => s == t
  | .unresolved s, .unresolved t => s == t
  | _, _ => false

end Value

end Stepwise
