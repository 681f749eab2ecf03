import Stepwise.Operator
import Stepwise.Proofs.Environment

/-!
# Comparisons that agree with each other

Equality with coercion and the orders find their way to numbers and texts separately: the one
by the kinds of its operands, the others by what the operands can be read as. Here both are
traced back to one way of comparing, which takes two texts as texts and any other values as
numbers. Absent values and documents are the only ones that leave it.

## Main definitions

* `Stepwise.Value.isScalar` — the values that are neither absent nor documents.
* `Stepwise.Value.compareBy` — two texts compared as texts, other values as numbers.

## Main results

* `Stepwise.Value.looseEquals_eq_compareBy` — equality of scalars is such a comparison.
* `Stepwise.Value.looseEquals_comm` — equality with coercion does not depend on the order.
* `Stepwise.Value.strictEquals_iff` — what equality without coercion says more than sameness.
* `Stepwise.Comparison.holds_coherent` — how equalities and orders fit together.
-/

namespace Stepwise

namespace Value

/-! ### Kinds of operands -/

/-- The value is a number, a text or a truth value. -/
def isScalar : Value → Bool
  | .number _ | .str _ | .bool _ | .symbolic _ => true
  | .null | .undefined | .structured _ | .unresolved _ => false

/-- The value is `NaN`. -/
def isNaN : Value → Bool
  | .number x => x.isNaN
  | _ => false

/-- What is neither absent nor a scalar is a document. -/
theorem exists_structured {a : Value} (hpresent : a.isNullish = false)
    (hscalar : a.isScalar = false) : ∃ json, a = .structured json := by
  cases a with
  | structured json => exact ⟨json, rfl⟩
  | number | str | bool | symbolic => cases hscalar
  | null | undefined | unresolved => cases hpresent

theorem isNullish_of_isScalar {a : Value} (h : a.isScalar = true) : a.isNullish = false := by
  cases a with
  | number | str | bool | symbolic => rfl
  | null | undefined | structured | unresolved => cases h

/-! ### Texts or numbers -/

/-- Compares two texts as texts, and any other values as numbers. -/
def compareBy (texts : Text → Text → Bool) (numbers : Float → Float → Bool) (a b : Value) : Bool :=
  match a.text?, b.text? with
  | some s, some t => texts s t
  | _, _ => numbers a.toNumber b.toNumber

section compareBy

variable {texts texts' texts'' : Text → Text → Bool}
  {numbers numbers' numbers'' : Float → Float → Bool}

/-- A comparison can be turned round where both its parts can. -/
theorem compareBy_swap (htexts : ∀ s t, texts s t = texts' t s)
    (hnumbers : ∀ x y, numbers x y = numbers' y x) (a b : Value) :
    compareBy texts numbers a b = compareBy texts' numbers' b a := by
  unfold compareBy
  cases a.text? with
  | none => cases b.text? <;> exact hnumbers _ _
  | some s =>
    cases b.text? with
    | none => exact hnumbers _ _
    | some t => exact htexts s t

/-- A comparison is one of two others where both its parts are. -/
theorem compareBy_or (htexts : ∀ s t, texts s t = (texts' s t || texts'' s t))
    (hnumbers : ∀ x y, numbers x y = (numbers' x y || numbers'' x y)) (a b : Value) :
    compareBy texts numbers a b =
      (compareBy texts' numbers' a b || compareBy texts'' numbers'' a b) := by
  unfold compareBy
  cases a.text? with
  | none => cases b.text? <;> exact hnumbers _ _
  | some s =>
    cases b.text? with
    | none => exact hnumbers _ _
    | some t => exact htexts s t

end compareBy

/-! ### Equality with coercion -/

/-- Equality of scalars takes two texts as texts and other values as numbers. -/
theorem looseEquals_eq_compareBy {a b : Value} (ha : a.isScalar = true) (hb : b.isScalar = true) :
    a.looseEquals b = compareBy (· == ·) (· == ·) a b := by
  rw [looseEquals, isNullish_of_isScalar ha, isNullish_of_isScalar hb]
  -- A number on the right is compared first, so these cases come the other way round.
  cases a with
  | number x =>
    cases b with
    | number | str | bool | symbolic => rfl
    | null | undefined | structured | unresolved => cases hb
  | str s | symbolic s =>
    cases b with
    | number y => exact Double.beq_comm y _
    | bool y => exact Double.beq_comm _ _
    | str | symbolic => rfl
    | null | undefined | structured | unresolved => cases hb
  | bool x =>
    cases b with
    | number | str | bool | symbolic => rfl
    | null | undefined | structured | unresolved => cases hb
  | null | undefined | structured | unresolved => cases ha

theorem looseEquals_structured (json : Json) (b : Value) :
    looseEquals (.structured json) b = sameAs (.structured json) b := by
  cases b <;> rfl

theorem looseEquals_structured_right (a : Value) (json : Json) :
    looseEquals a (.structured json) = sameAs a (.structured json) := by
  cases a <;> rfl

theorem sameAs_comm (a b : Value) : a.sameAs b = b.sameAs a := by
  cases a <;> cases b
  case number.number x y => rw [sameAs, sameAs, Double.beq_comm, Bool.and_comm]
  case structured.structured json json' => exact Json.sameAs_comm json json'
  case str.str | bool.bool | symbolic.symbolic | unresolved.unresolved => exact BEq.comm
  all_goals rfl

/-- Equality with coercion does not depend on the order of the operands. -/
theorem looseEquals_comm (a b : Value) : a.looseEquals b = b.looseEquals a := by
  by_cases habsent : (a.isNullish || b.isNullish) = true
  · rw [looseEquals, looseEquals, if_pos habsent, if_pos (Bool.or_comm _ _ ▸ habsent),
      Bool.and_comm]
  · rw [Bool.not_eq_true, Bool.or_eq_false_iff] at habsent
    cases ha : a.isScalar with
    | false =>
      obtain ⟨json, rfl⟩ := exists_structured habsent.1 ha
      rw [looseEquals_structured, looseEquals_structured_right, sameAs_comm]
    | true =>
      cases hb : b.isScalar with
      | false =>
        obtain ⟨json, rfl⟩ := exists_structured habsent.2 hb
        rw [looseEquals_structured, looseEquals_structured_right, sameAs_comm]
      | true =>
        rw [looseEquals_eq_compareBy ha hb, looseEquals_eq_compareBy hb ha]
        exact compareBy_swap (fun _ _ => BEq.comm) Double.beq_comm a b

/-! ### Equality without coercion -/

/-- Values are equal without coercion if they are the same and not both `NaN`. -/
theorem strictEquals_iff (a b : Value) :
    a.strictEquals b = true ↔ a.sameAs b = true ∧ ¬ (a.isNaN = true ∧ b.isNaN = true) := by
  cases a with
  | number x =>
    cases b with
    | number y =>
      change (x == y) = true ↔
        ((x == y) || (x.isNaN && y.isNaN)) = true ∧ ¬ (x.isNaN = true ∧ y.isNaN = true)
      rw [Bool.or_eq_true, Bool.and_eq_true]
      constructor
      · intro heq
        refine ⟨.inl heq, fun hnan => ?_⟩
        rw [Double.isNaN_of_beq heq] at hnan
        cases hnan.1
      · rintro ⟨heq | hnan, hnot⟩
        · exact heq
        · exact absurd hnan hnot
    | _ => exact ⟨nofun, nofun⟩
  | _ =>
    have hnan : ∀ {P : Prop}, ¬ (false = true ∧ P) := fun h => nomatch h.1
    exact ⟨fun h => ⟨h, hnan⟩, And.left⟩

/-- Coercion keeps values equal that are equal without it. -/
theorem looseEquals_of_strictEquals {a b : Value} (h : a.strictEquals b = true) :
    a.looseEquals b = true := by
  obtain ⟨hsame, hnan⟩ := (strictEquals_iff a b).1 h
  cases (sameAs_iff a b).1 hsame with
  | number heq => exact heq
  | nan hx hy => exact absurd ⟨hx, hy⟩ hnan
  | structured hjson => exact hjson
  | str text | symbolic text => exact beq_self_eq_true text
  | bool b => exact Double.beq_self (by cases b <;> decide +kernel)
  | null | undefined | unresolved => rfl

end Value

/-! ### Orders -/

namespace Comparison

open Value (compareBy)

variable {a b : Value}

theorem holds_eq_compareBy {op : Comparison} (hop : op ∈ [lt, gt, le, ge]) (a b : Value) :
    op.holds a b = compareBy (op.orders Text.before fun s t => !Text.before t s)
      (op.orders (fun x y => decide (x < y)) fun x y => decide (x ≤ y)) a b := by
  simp only [List.mem_cons, List.not_mem_nil, or_false] at hop
  rcases hop with rfl | rfl | rfl | rfl <;> rfl

/-- A scalar is at most another one if it is less or if both are equal. -/
theorem holds_le_eq (ha : a.isScalar = true) (hb : b.isScalar = true) :
    le.holds a b = (lt.holds a b || a.looseEquals b) := by
  rw [holds_eq_compareBy (by simp), holds_eq_compareBy (by simp),
    Value.looseEquals_eq_compareBy ha hb]
  refine Value.compareBy_or (fun s t => ?_) (fun x y => ?_) a b
  · change (!Text.before t s) = (Text.before s t || s == t)
    rw [Bool.eq_iff_iff, Bool.not_eq_true', Bool.or_eq_true, beq_iff_eq]
    exact Text.not_before_iff
  · change decide (x ≤ y) = (decide (x < y) || x == y)
    rw [Bool.eq_iff_iff, Bool.or_eq_true, decide_eq_true_iff, decide_eq_true_iff]
    exact Double.le_iff_lt_or_beq x y

/-- An absent value is left out there: it counts as a number for the orders only. -/
example : le.holds .null (.number 0.0) = true ∧ lt.holds .null (.number 0.0) = false ∧
    Value.looseEquals .null (.number 0.0) = false := by decide +kernel

/-- How equalities and orders fit together. Equality with coercion does not depend on the order
of its operands; equality without coercion implies it, and says that the values are the same
and not both `NaN`; the orders mirror each other; and of two scalars the one is at most the
other if it is less or equal with coercion. -/
theorem holds_coherent (a b : Value) :
    a.looseEquals b = b.looseEquals a ∧
      (a.strictEquals b = true → a.looseEquals b = true) ∧
      (a.strictEquals b = true ↔ a.sameAs b = true ∧ ¬ (a.isNaN = true ∧ b.isNaN = true)) ∧
      lt.holds a b = gt.holds b a ∧ le.holds a b = ge.holds b a ∧
      (a.isScalar = true → b.isScalar = true →
        (le.holds a b = true ↔ lt.holds a b = true ∨ a.looseEquals b = true)) := by
  refine ⟨Value.looseEquals_comm a b, Value.looseEquals_of_strictEquals, Value.strictEquals_iff a b,
    ?_, ?_, ?_⟩
  · rw [holds_eq_compareBy (by simp), holds_eq_compareBy (by simp)]
    exact Value.compareBy_swap (fun _ _ => rfl) (fun _ _ => rfl) a b
  · rw [holds_eq_compareBy (by simp), holds_eq_compareBy (by simp)]
    exact Value.compareBy_swap (fun _ _ => rfl) (fun _ _ => rfl) a b
  · intro ha hb
    rw [holds_le_eq ha hb, Bool.or_eq_true]

/-- A truth value and a text with white space are both read as the number one. -/
theorem holds_coherent_coerced :
    let yes : Value := .bool true
    let one : Value := .str " 1 ".toList
    yes.looseEquals one = true ∧ one.looseEquals yes = true ∧ yes.strictEquals one = false ∧
      le.holds yes one = true ∧ ge.holds one yes = true := by
  intro yes one
  have hequal : yes.looseEquals one = true := by decide +kernel
  obtain ⟨hcomm, _, _, _, hmirror, hle⟩ := holds_coherent yes one
  have hatMost := (hle rfl rfl).2 (.inr hequal)
  exact ⟨hequal, hcomm ▸ hequal, rfl, hatMost, hmirror ▸ hatMost⟩

end Comparison

end Stepwise
