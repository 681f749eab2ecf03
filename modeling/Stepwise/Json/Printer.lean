import Stepwise.Double.Format
import Stepwise.Json.Basic

/-!
# Writing JSON

## Main definitions

* `Stepwise.Json.doubleFormat` — how doubles are written.
* `Stepwise.Json.quoted` — a text as a JSON string.
* `Stepwise.Json.compact` — a value without any white space.
* `Stepwise.Json.pretty` — a value with one item or field a line.
-/

namespace Stepwise.Json

/-- Doubles have a point unless they have an exponent, which stands for numbers
below `10 ^ -5` and from `10 ^ 16` on. -/
def doubleFormat : Double.Format where
  leastPoint := -4
  greatestPoint := 16
  keepsPoint := true
  exactWhole := false
  tie := .even

/-- The text of a double. There is no number for one that is not finite. -/
def ofDouble (x : Float) : Text :=
  if x.isNaN || x.isInf then "null".toList
  else if x == 0.0 then (if (Double.parts x).negative then "-0.0".toList else "0.0".toList)
  else doubleFormat.finite x

/-! ### Strings -/

/-- A digit in base sixteen. -/
def hexDigit (n : Nat) : Char :=
  (Nat.toDigits 16 (n % 16)).headD '0'

/-- A character as it stands in a JSON string. -/
def escape (c : Char) : Text :=
  if c = '\x22' then ['\\', '\x22']
  else if c = '\\' then ['\\', '\\']
  else if c = '\x08' then ['\\', 'b']
  else if c = '\x0c' then ['\\', 'f']
  else if c = '\n' then ['\\', 'n']
  else if c = '\r' then ['\\', 'r']
  else if c = '\t' then ['\\', 't']
  else if c.toNat < 0x20 then
    ['\\', 'u', '0', '0', hexDigit (c.toNat / 16), hexDigit c.toNat]
  else [c]

/-- A text as a JSON string. -/
def quoted (text : Text) : Text :=
  '\x22' :: (text.flatMap escape ++ ['\x22'])

/-! ### Values -/

/-- The text of a truth value. -/
def ofBool (b : Bool) : Text :=
  if b then "true".toList else "false".toList

mutual

/-- A value without any white space. -/
def compact : Json → Text
  | .null => "null".toList
  | .bool b => ofBool b
  | .int n => Text.ofInt n
  | .double x => ofDouble x
  | .str text => quoted text
  | .arr [] => ['[', ']']
  | .arr (item :: items) => '[' :: (compact item ++ compactItems items)
  | .obj [] => ['{', '}']
  | .obj ((key, value) :: fields) =>
    '{' :: (quoted key ++ ':' :: (compact value ++ compactFields fields))

/-- The items of an array after the first one, with the closing bracket. -/
def compactItems : List Json → Text
  | [] => [']']
  | item :: items => ',' :: (compact item ++ compactItems items)

/-- The fields of an object after the first one, with the closing bracket. -/
def compactFields : List (Text × Json) → Text
  | [] => ['}']
  | (key, value) :: fields =>
    ',' :: (quoted key ++ ':' :: (compact value ++ compactFields fields))

end

/-- A line break and the indentation of the given level. -/
def newLine (level : Nat) : Text :=
  '\n' :: List.replicate (2 * level) ' '

mutual

/-- A value with every item and field on a line of its own, two spaces deeper than
its container. -/
def prettyAt (level : Nat) : Json → Text
  | .arr [] => ['[', ']']
  | .arr (item :: items) =>
    '[' :: (newLine (level + 1) ++ prettyAt (level + 1) item ++ prettyItems level items)
  | .obj [] => ['{', '}']
  | .obj ((key, value) :: fields) =>
    '{' :: (newLine (level + 1) ++ quoted key ++
      ':' :: ' ' :: (prettyAt (level + 1) value ++ prettyFields level fields))
  | .null => "null".toList
  | .bool b => ofBool b
  | .int n => Text.ofInt n
  | .double x => ofDouble x
  | .str text => quoted text

/-- The items of an array after the first one, with the closing bracket. -/
def prettyItems (level : Nat) : List Json → Text
  | [] => newLine level ++ [']']
  | item :: items =>
    ',' :: (newLine (level + 1) ++ prettyAt (level + 1) item ++ prettyItems level items)

/-- The fields of an object after the first one, with the closing bracket. -/
def prettyFields (level : Nat) : List (Text × Json) → Text
  | [] => newLine level ++ ['}']
  | (key, value) :: fields =>
    ',' :: (newLine (level + 1) ++ quoted key ++
      ':' :: ' ' :: (prettyAt (level + 1) value ++ prettyFields level fields))

end

/-- A value with one item or field a line. -/
def pretty (json : Json) : Text :=
  prettyAt 0 json

end Stepwise.Json
