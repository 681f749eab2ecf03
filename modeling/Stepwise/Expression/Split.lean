import Stepwise.Operator
import Stepwise.Text.Scan

/-!
# Splitting expressions at an operator

An expression is split at one operator that stands at the top level: at its first
comparison, or else at its last arithmetic operator of the loosest binding.

## Main definitions

* `Stepwise.Expression.splitComparison` — the sides of the first comparison.
* `Stepwise.Expression.splitArithmetic` — the sides of the last loosest operator.

## Main results

* `Stepwise.Expression.eq_of_splitComparison`, `eq_of_splitArithmetic` — the sides
  and the operator make up the text, so each side is shorter than the text.
-/

namespace Stepwise.Expression

open Text (Spot topLevel)

/-! ### Comparisons -/

/-- The comparison at a spot, with the text after it. A single `<` or `>` that is
doubled or follows `=` belongs to a shift or an arrow. -/
def comparisonAt? (spot : Spot) : Option (Comparison × Text) :=
  (Comparison.leading? spot.rest).filter fun (op, right) =>
    !(op.isBare && (spot.before.head? == some '=' || spot.before.head? == some spot.char ||
      right.head? == some spot.char))

/-- The first comparison at the top level and its two sides. -/
def splitComparison (text : Text) : Option (Text × Comparison × Text) :=
  (topLevel text).findSome? fun spot =>
    (comparisonAt? spot).map fun (op, right) => (spot.left, op, right)

theorem eq_of_splitComparison {text left right : Text} {op : Comparison}
    (h : splitComparison text = some (left, op, right)) :
    text = left ++ op.symbol ++ right := by
  obtain ⟨spot, hmem, hspot⟩ := List.exists_of_findSome?_eq_some h
  cases hat : comparisonAt? spot with
  | none => simp [hat] at hspot
  | some found =>
    obtain ⟨op', right'⟩ := found
    simp only [hat, Option.map_some, Option.some.injEq, Prod.mk.injEq] at hspot
    obtain ⟨rfl, rfl, rfl⟩ := hspot
    have hlead := Comparison.leading?_eq_some (Option.filter_eq_some_iff.mp hat).1
    rw [← Text.text_of_mem_topLevel hmem, Spot.text, hlead, List.append_assoc]

theorem length_of_splitComparison {text left right : Text} {op : Comparison}
    (h : splitComparison text = some (left, op, right)) :
    left.length < text.length ∧ right.length < text.length := by
  have hsymbol : 0 < op.symbol.length := by cases op <;> decide
  rw [eq_of_splitComparison h]
  simp only [List.length_append]
  omega

/-! ### Arithmetic -/

/-- A character after which a sign has no operand before it. -/
def isOperatorChar (c : Char) : Bool :=
  ['+', '-', '*', '/', '%', '=', '<', '>', '!', '&', '|', ','].contains c

/-- The start of an arrow, whose body is no operand. -/
def isArrow (spot : Spot) : Bool :=
  spot.char == '=' && spot.after.head? == some '>'

/-- Whether an operator character takes two operands: it is not doubled, no part of
a compound assignment, and no sign. `previous` is the last character at the top
level that is not blank. -/
def isBinary (op : Arithmetic) (previous : Option Char) (spot : Spot) : Bool :=
  !(spot.before.head? == some spot.char || spot.after.head? == some spot.char) &&
    spot.after.head? != some '=' &&
    !(op.isAdditive && previous.all isOperatorChar)

/-- The operators with two operands among the spots of the top level. -/
def operators (previous : Option Char) : List Spot → List (Arithmetic × Spot)
  | [] => []
  | spot :: spots =>
    if Text.isBlank spot.char then operators previous spots
    else
      let others := operators (some spot.char) spots
      match Arithmetic.ofChar? spot.char with
      | some op => if isBinary op previous spot then (op, spot) :: others else others
      | none => others

/-- The operator at which an expression is split, with its place: the last additive one, or
else the last one. -/
def loosest {α : Type} (found : List (Arithmetic × α)) : Option (Arithmetic × α) :=
  ((found.filter fun f => f.1.isAdditive).getLast?).or found.getLast?

/-- The arithmetic operator at which a text is split and its two sides. A text with
an arrow is not split, and neither side may be blank. -/
def splitArithmetic (text : Text) : Option (Text × Arithmetic × Text) :=
  let spots := topLevel text
  if spots.any isArrow then none
  else match loosest (operators none spots) with
    | none => none
    | some (op, spot) =>
      if (Text.trim spot.left).isEmpty || (Text.trim spot.after).isEmpty then none
      else some (spot.left, op, spot.after)

theorem mem_of_mem_operators {previous : Option Char} {spots : List Spot} {op : Arithmetic}
    {spot : Spot} (h : (op, spot) ∈ operators previous spots) :
    spot ∈ spots ∧ spot.char = op.symbol := by
  induction spots generalizing previous with
  | nil => simp [operators] at h
  | cons s spots ih =>
    simp only [operators] at h
    split at h
    · exact ⟨List.mem_cons_of_mem _ (ih h).1, (ih h).2⟩
    · split at h
      · rename_i op' hop
        split at h
        · rcases List.mem_cons.mp h with heq | h
          · simp only [Prod.mk.injEq] at heq
            obtain ⟨rfl, rfl⟩ := heq
            exact ⟨List.mem_cons_self, Arithmetic.ofChar?_eq_some_iff.mp hop⟩
          · exact ⟨List.mem_cons_of_mem _ (ih h).1, (ih h).2⟩
        · exact ⟨List.mem_cons_of_mem _ (ih h).1, (ih h).2⟩
      · exact ⟨List.mem_cons_of_mem _ (ih h).1, (ih h).2⟩

theorem mem_of_loosest {α : Type} {found : List (Arithmetic × α)} {f : Arithmetic × α}
    (h : loosest found = some f) : f ∈ found := by
  rcases Option.or_eq_some_iff.mp h with h | ⟨-, h⟩
  · exact (List.mem_filter.mp (List.mem_of_getLast? h)).1
  · exact List.mem_of_getLast? h

theorem eq_of_splitArithmetic {text left right : Text} {op : Arithmetic}
    (h : splitArithmetic text = some (left, op, right)) :
    text = left ++ op.symbol :: right := by
  simp only [splitArithmetic] at h
  split at h
  · simp at h
  · split at h
    · simp at h
    · rename_i op' spot hloose
      split at h
      · simp at h
      · simp only [Option.some.injEq, Prod.mk.injEq] at h
        obtain ⟨rfl, rfl, rfl⟩ := h
        obtain ⟨hmem, hchar⟩ := mem_of_mem_operators (mem_of_loosest hloose)
        rw [← Text.text_of_mem_topLevel hmem, Spot.text, Spot.rest, hchar]

theorem length_of_splitArithmetic {text left right : Text} {op : Arithmetic}
    (h : splitArithmetic text = some (left, op, right)) :
    left.length < text.length ∧ right.length < text.length := by
  rw [eq_of_splitArithmetic h]
  simp only [List.length_append, List.length_cons]
  omega

end Stepwise.Expression
