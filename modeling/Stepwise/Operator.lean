import Stepwise.Value

/-!
# Operators

## Main definitions

* `Stepwise.Arithmetic` — the five operators on numbers.
* `Stepwise.Comparison` — the eight comparisons.
* `Stepwise.Value.strictEquals`, `looseEquals` — equality without and with coercion.
* `Stepwise.Comparison.holds` — the truth value of a comparison.
-/

namespace Stepwise

/-! ### Arithmetic -/

/-- The operators on numbers. -/
inductive Arithmetic where
  | add
  | sub
  | mul
  | div
  | rem
  deriving DecidableEq, Repr

namespace Arithmetic

/-- The character that writes an operator. -/
def symbol : Arithmetic → Char
  | .add => '+'
  | .sub => '-'
  | .mul => '*'
  | .div => '/'
  | .rem => '%'

/-- The operator that a character writes. -/
def ofChar? (c : Char) : Option Arithmetic :=
  if c = '+' then some .add
  else if c = '-' then some .sub
  else if c = '*' then some .mul
  else if c = '/' then some .div
  else if c = '%' then some .rem
  else none

theorem ofChar?_eq_some_iff {c : Char} {op : Arithmetic} :
    ofChar? c = some op ↔ c = op.symbol := by
  constructor
  · intro h
    unfold ofChar? at h
    repeat' split at h
    all_goals simp_all [symbol]
    all_goals subst h; rfl
  · rintro rfl
    cases op <;> rfl

/-- Addition and subtraction bind looser than the other operators. -/
def isAdditive : Arithmetic → Bool
  | .add | .sub => true
  | _ => false

/-- The result of an operator. Division by zero gives an infinity or `NaN`. -/
def apply : Arithmetic → Float → Float → Float
  | .add, a, b => a + b
  | .sub, a, b => a - b
  | .mul, a, b => a * b
  | .div, a, b => a / b
  | .rem, a, b => Double.remainder a b

end Arithmetic

/-! ### Equality -/

namespace Value

/-- Equality without coercion: the same value, except that `NaN` equals nothing. -/
def strictEquals : Value → Value → Bool
  | .number a, .number b => a == b
  | a, b => a.sameAs b

/-- A truth value as the number it counts as; other values stay. -/
def unbool : Value → Value
  | .bool b => .number (if b then 1.0 else 0.0)
  | value => value

/-- Equality of two values neither of which is absent or a truth value: a number
against a text reads the text as a number, and two texts compare as texts. -/
def coercedEquals (a b : Value) : Bool :=
  match a, b with
  | .number x, b => if b.text?.isSome then x == b.toNumber else strictEquals a b
  | a, .number y => if a.text?.isSome then y == a.toNumber else strictEquals a b
  | a, b =>
    match a.text?, b.text? with
    | some s, some t => s == t
    | _, _ => strictEquals a b

/-- Equality with coercion. Absent values only equal each other, and a truth value
counts as one or zero. -/
def looseEquals (a b : Value) : Bool :=
  if a.isNullish || b.isNullish then a.isNullish && b.isNullish
  else coercedEquals a.unbool b.unbool

end Value

/-! ### Comparisons -/

/-- The comparisons. -/
inductive Comparison where
  | strictEq
  | strictNe
  | looseEq
  | looseNe
  | le
  | ge
  | lt
  | gt
  deriving DecidableEq, Repr

namespace Comparison

/-- The text that writes a comparison. -/
def symbol : Comparison → Text
  | .strictEq => ['=', '=', '=']
  | .strictNe => ['!', '=', '=']
  | .looseEq => ['=', '=']
  | .looseNe => ['!', '=']
  | .le => ['<', '=']
  | .ge => ['>', '=']
  | .lt => ['<']
  | .gt => ['>']

/-- All comparisons, longer symbols first, so that none is read as a part of a
longer one. -/
def all : List Comparison :=
  [.strictEq, .strictNe, .looseEq, .looseNe, .le, .ge, .lt, .gt]

/-- The comparison at the start of a text, and what follows it. -/
def leading? (text : Text) : Option (Comparison × Text) :=
  all.findSome? fun op => (Text.afterLead op.symbol text).map (op, ·)

theorem leading?_eq_some {text rest : Text} {op : Comparison}
    (h : leading? text = some (op, rest)) : text = op.symbol ++ rest := by
  obtain ⟨op', -, hop⟩ := List.exists_of_findSome?_eq_some h
  cases hlead : Text.afterLead op'.symbol text with
  | none => simp [hlead] at hop
  | some rest' =>
    simp only [hlead, Option.map_some, Option.some.injEq, Prod.mk.injEq] at hop
    obtain ⟨rfl, rfl⟩ := hop
    exact Text.afterLead_eq_some_iff.mp hlead

/-- The two comparisons whose symbol is a single character. -/
def isBare : Comparison → Bool
  | .lt | .gt => true
  | _ => false

/-- An ordering of two texts or of two numbers; equality comparisons are not
orderings and never hold. -/
def orders {α : Type} (lt le : α → α → Bool) : Comparison → α → α → Bool
  | .lt, a, b => lt a b
  | .gt, a, b => lt b a
  | .le, a, b => le a b
  | .ge, a, b => le b a
  | _, _, _ => false

/-- The truth value of a comparison. Texts are ordered character by character, all
other values as numbers. -/
def holds (op : Comparison) (a b : Value) : Bool :=
  match op with
  | .strictEq => a.strictEquals b
  | .strictNe => !a.strictEquals b
  | .looseEq => a.looseEquals b
  | .looseNe => !a.looseEquals b
  | op =>
    match a.text?, b.text? with
    | some s, some t => op.orders Text.before (fun s t => !Text.before t s) s t
    | _, _ =>
      op.orders (fun x y : Float => decide (x < y)) (fun x y => decide (x ≤ y))
        a.toNumber b.toNumber

end Comparison

end Stepwise
