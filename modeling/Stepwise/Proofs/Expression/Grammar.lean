import Stepwise.Expression.Evaluate

/-!
# Printed expressions

Evaluation works on raw text and knows no syntax trees. This module has the trees: the
expressions that one would write down, the text with which each of them is printed,
and the value that each of them should have by its structure alone.

An expression compares chains of atoms. A chain is read as a sum of products: the
operators `*`, `/` and `%` bind tighter than `+` and `-`, and operators that bind
alike group to the left. Comparisons bind loosest and nest to the right.

## Main definitions

* `Stepwise.Expression.Atom` — decimals, quoted texts, named literals, identifiers.
* `Stepwise.Expression.Chain` — atoms with arithmetic operators between them.
* `Stepwise.Expression.Product`, `Grouping` — how a chain groups.
* `Stepwise.Expression.Fragment` — chains with comparisons between them.
* `Stepwise.Expression.Fragment.text`, `Fragment.value` — how an expression is
  printed, and its value in an environment.

## Main results

* `Stepwise.Expression.Chain.text_group` — grouping does not change what is printed.
-/

namespace Stepwise.Expression

/-! ### Atoms -/

/-- The sign in front of a decimal. -/
inductive Sign where
  | plus
  | minus
  deriving DecidableEq, Repr

/-- The character that writes a sign. -/
def Sign.symbol : Sign → Char
  | .plus => '+'
  | .minus => '-'

/-- A decimal literal: an optional sign, digits, and optionally a point with digits
behind it. -/
structure Decimal where
  /-- The sign, if one is written. -/
  sign : Option Sign
  /-- The digits before the point. -/
  whole : Text
  /-- The digits behind the point, if there is a point. -/
  fraction : Option Text
  isDigits_whole : isDigits whole = true
  isDigits_fraction : ∀ digits ∈ fraction, isDigits digits = true

namespace Decimal

/-- A decimal without its sign. -/
def unsigned (decimal : Decimal) : Text :=
  decimal.whole ++ decimal.fraction.elim [] ('.' :: ·)

/-- The text of a decimal. -/
def text (decimal : Decimal) : Text :=
  (decimal.sign.elim [] fun sign => [sign.symbol]) ++ decimal.unsigned

/-- The double nearest to what the digits write, under the sign. -/
def value (decimal : Decimal) : Float :=
  let magnitude := match decimal.fraction with
    | none => Float.ofScientific (Double.natOfDigits decimal.whole) false 0
    | some fraction =>
      Float.ofScientific (Double.natOfDigits (decimal.whole ++ fraction)) true fraction.length
  if decimal.sign = some .minus then -magnitude else magnitude

end Decimal

/-- A text between two quotes of one kind. -/
structure Quoted where
  /-- The quote on both sides. -/
  quote : Char
  /-- What stands between the quotes. -/
  body : Text
  /-- The delimiter is a quote. -/
  isQuote_quote : Text.isQuote quote = true
  /-- The body has no unescaped quote of this kind and no dangling backslash. -/
  isLiteralBody_body : isLiteralBody quote body = true

/-- The text of a quoted literal, with its quotes. -/
def Quoted.text (quoted : Quoted) : Text :=
  quoted.quote :: (quoted.body ++ [quoted.quote])

/-- The literals that are words. -/
inductive NamedLiteral where
  | true_
  | false_
  | null
  | undefined
  deriving DecidableEq, Repr

namespace NamedLiteral

/-- The word that writes a literal. -/
def text : NamedLiteral → Text
  | .true_ => "true".toList
  | .false_ => "false".toList
  | .null => "null".toList
  | .undefined => "undefined".toList

/-- The value that a word stands for. -/
def value : NamedLiteral → Value
  | .true_ => .bool true
  | .false_ => .bool false
  | .null => .null
  | .undefined => .undefined

end NamedLiteral

/-- A word that is no literal. -/
structure Identifier where
  name : Text
  isWord_name : Text.isWord name = true
  /-- It is no integer. -/
  isDigits_name : isDigits name = false
  /-- It is none of the literals that are words. -/
  ne_literal : ∀ literal : NamedLiteral, name ≠ literal.text

/-- The operands of arithmetic. -/
inductive Atom where
  | decimal (literal : Decimal)
  | quoted (literal : Quoted)
  | named (literal : NamedLiteral)
  | identifier (word : Identifier)

namespace Atom

/-- The text of an atom. -/
def text : Atom → Text
  | .decimal literal => literal.text
  | .quoted literal => literal.text
  | .named literal => literal.text
  | .identifier word => word.name

/-- The value of an atom: a literal has its own, and an identifier that of its
binding. -/
def value (env : Environment) : Atom → Value
  | .decimal literal => .number literal.value
  | .quoted literal => .str literal.body
  | .named literal => literal.value
  | .identifier word => (env.valueOf? word.name).getD (.unresolved word.name)

end Atom

/-! ### Chains -/

/-- An operator with a space on either side. -/
def spaced (symbol : Text) : Text :=
  ' ' :: (symbol ++ [' '])

/-- Atoms with operators between them, without any grouping. -/
inductive Chain where
  | atom (first : Atom)
  | join (start : Chain) (op : Arithmetic) (last : Atom)

/-- The text of a chain. -/
def Chain.text : Chain → Text
  | .atom first => first.text
  | .join start op last => start.text ++ (spaced [op.symbol] ++ last.text)

/-- Atoms with multiplicative operators between them, grouped to the left. -/
inductive Product where
  | atom (first : Atom)
  | join (left : Product) (op : Arithmetic) (tight : op.isAdditive = false) (right : Atom)

/-- Products with additive operators between them, grouped to the left. -/
inductive Grouping where
  | product (first : Product)
  | join (left : Grouping) (op : Arithmetic) (loose : op.isAdditive = true) (right : Product)

/-- The value of an operator between two operands, printed as `text`. Numbers are
computed; `+` puts anything else together as it is displayed; all else stands for
itself. -/
def operate (text : Text) : Arithmetic → Value → Value → Value
  | .add, .number a, .number b => .number (a + b)
  | .sub, .number a, .number b => .number (a - b)
  | .mul, .number a, .number b => .number (a * b)
  | .div, .number a, .number b => .number (a / b)
  | .rem, .number a, .number b => .number (Double.remainder a b)
  | .add, left, right => .str (left.display ++ right.display)
  | _, _, _ => .symbolic text

namespace Product

/-- The text of a product. -/
def text : Product → Text
  | .atom first => first.text
  | .join left op _ right => left.text ++ (spaced [op.symbol] ++ right.text)

/-- The value of a product. -/
def value (env : Environment) : Product → Value
  | .atom first => first.value env
  | .join left op tight right =>
    operate (Product.join left op tight right).text op (left.value env) (right.value env)

end Product

namespace Grouping

/-- The text of a grouping. -/
def text : Grouping → Text
  | .product first => first.text
  | .join left op _ right => left.text ++ (spaced [op.symbol] ++ right.text)

/-- The value of a grouping. -/
def value (env : Environment) : Grouping → Value
  | .product first => first.value env
  | .join left op loose right =>
    operate (Grouping.join left op loose right).text op (left.value env) (right.value env)

/-- A grouping with one more operator and atom: an additive operator starts a new
product, any other one extends the last product. -/
def push (op : Arithmetic) (last : Atom) (grouping : Grouping) : Grouping :=
  if loose : op.isAdditive = true then .join grouping op loose (.atom last)
  else
    have tight : op.isAdditive = false := by simpa using loose
    match grouping with
    | .product first => .product (.join first op tight last)
    | .join left op' loose' right => .join left op' loose' (.join right op tight last)

theorem text_push (op : Arithmetic) (last : Atom) (grouping : Grouping) :
    (grouping.push op last).text = grouping.text ++ (spaced [op.symbol] ++ last.text) := by
  unfold push
  split
  · rfl
  · cases grouping with
    | product first => rfl
    | join left op' loose' right => simp [text, Product.text]

end Grouping

namespace Chain

/-- The grouping of a chain. -/
def group : Chain → Grouping
  | .atom first => .product (.atom first)
  | .join start op last => start.group.push op last

/-- Grouping does not change what is printed. -/
theorem text_group (chain : Chain) : chain.group.text = chain.text := by
  induction chain with
  | atom first => rfl
  | join start op last ih => rw [group, Grouping.text_push, ih, text]

/-- The value of a chain. -/
def value (env : Environment) (chain : Chain) : Value :=
  chain.group.value env

end Chain

/-! ### Fragments -/

/-- Chains with comparisons between them. -/
inductive Fragment where
  | chain (only : Chain)
  | compare (first : Chain) (op : Comparison) (rest : Fragment)

namespace Fragment

/-- The text of a fragment. -/
def text : Fragment → Text
  | .chain only => only.text
  | .compare first op rest => first.text ++ (spaced op.symbol ++ rest.text)

/-- The value of a fragment. -/
def value (env : Environment) : Fragment → Value
  | .chain only => only.value env
  | .compare first op rest => .bool (op.holds (first.value env) (rest.value env))

end Fragment

end Stepwise.Expression
