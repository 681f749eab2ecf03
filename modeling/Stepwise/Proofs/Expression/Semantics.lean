import Stepwise.Proofs.Expression.Evaluation
import Stepwise.Proofs.Expression.TopLevel

/-!
# The value of printed expressions

Evaluation splits raw text again and again. On a printed expression each split falls
exactly where the structure of the expression has its outermost operator, so the
value is the one that the structure gives.

## Main results

* `Stepwise.Expression.splitArithmetic_grouping`, `splitArithmetic_product`,
  `Uncompared.splitComparison_append` — where printed expressions are split.
* `Stepwise.Expression.evaluate_fragment` — a printed expression has the value of its
  structure.
-/

namespace Stepwise.Expression

open Text (ScanState Spot scanFrom topLevel)

variable {env : Environment} {s t left right : Text}

theorem combine_eq_operate (text : Text) (op : Arithmetic) (a b : Value) :
    combine text op a b = operate text op a b := by
  cases a <;> cases b <;> cases op <;> rfl

/-! ### Where comparisons split -/

theorem comparisonAt?_eq_none {spot : Spot} (h : spot.char ∉ comparisonStarts) :
    comparisonAt? spot = none := by
  simp only [comparisonStarts, List.mem_cons, List.not_mem_nil, or_false, not_or] at h
  obtain ⟨heq, hbang, hlt, hgt⟩ := h
  have hleading : Comparison.leading? spot.rest = none := by
    simp [Comparison.leading?, Comparison.all, Spot.rest, Comparison.symbol, Text.afterLead,
      Ne.symm heq, Ne.symm hbang, Ne.symm hlt, Ne.symm hgt]
  simp [comparisonAt?, hleading]

theorem findSome?_comparisonAt?_eq_none {spots : List Spot}
    (h : ∀ spot ∈ spots, spot.char ∉ comparisonStarts) :
    (spots.findSome? fun spot =>
      (comparisonAt? spot).map fun (op, right) => (spot.left, op, right)) = none := by
  rw [List.findSome?_eq_none_iff]
  intro spot hspot
  rw [comparisonAt?_eq_none (h spot hspot), Option.map_none]

theorem Uncompared.splitComparison_eq_none (h : Uncompared t) : splitComparison t = none :=
  findSome?_comparisonAt?_eq_none (h.char_not_mem [])

/-- A comparison with a space before it, and with a space or nothing behind it, is found at its
place. -/
theorem comparisonAt?_spaced (op : Comparison) (before : List Char)
    (ht : t = [] ∨ t.head? = some ' ') :
    ∃ c rest, op.symbol = c :: rest ∧
      comparisonAt? ⟨' ' :: before, c, rest ++ t⟩ = some (op, t) := by
  rcases ht with rfl | ht
  · cases op <;> exact ⟨_, _, rfl, rfl⟩
  · obtain ⟨more, rfl⟩ := List.head?_eq_some_iff.1 ht
    cases op <;> exact ⟨_, _, rfl, rfl⟩

/-- A text without comparisons is split off at the comparison that follows it. -/
theorem Uncompared.splitComparison_gap (h : Uncompared s) (op : Comparison)
    (ht : t = [] ∨ t.head? = some ' ') :
    splitComparison (s ++ ' ' :: (op.symbol ++ t)) = some (s ++ [' '], op, t) := by
  obtain ⟨c, rest, hsymbol, hat⟩ := comparisonAt?_spaced op s.reverse ht
  have hstart : Uncompared (s ++ [' ']) := h.append (cons rfl (by decide) nil)
  have htext : s ++ ' ' :: (op.symbol ++ t) = (s ++ [' ']) ++ c :: (rest ++ t) := by
    simp [hsymbol]
  have hnone : ∀ spot ∈ (scanFrom .all (.code 0) [] (s ++ [' '])).map
      (Spot.extend (c :: (rest ++ t))), spot.char ∉ comparisonStarts := by
    intro spot hspot
    obtain ⟨spot', hspot', rfl⟩ := List.mem_map.mp hspot
    exact hstart.char_not_mem [] spot' hspot'
  rw [htext, splitComparison, topLevel, Text.scan, ScanState.start, Text.scanFrom_append,
    hstart.run_eq, List.findSome?_append, findSome?_comparisonAt?_eq_none hnone,
    Text.scanFrom_cons_of_shows rfl]
  simp [hat, Spot.left]

/-- A text without comparisons and one that follows are split at the comparison
between them. -/
theorem Uncompared.splitComparison_append (h : Uncompared s) (op : Comparison) (t : Text) :
    splitComparison (s ++ (spaced op.symbol ++ t)) = some (s ++ [' '], op, ' ' :: t) := by
  have htext : s ++ (spaced op.symbol ++ t) = s ++ ' ' :: (op.symbol ++ ' ' :: t) := by
    simp [spaced]
  rw [htext, h.splitComparison_gap op (.inr rfl)]

/-! ### Where arithmetic splits -/

section Loosest

variable {op : Arithmetic} {spot : Spot} {earlier later : List (Arithmetic × Spot)}

/-- The last additive operator is the loosest one. -/
theorem loosest_additive (hop : op.isAdditive = true)
    (hlater : ∀ f ∈ later, f.1.isAdditive = false) :
    loosest (earlier ++ (op, spot) :: later) = some (op, spot) := by
  have hfilter : later.filter (fun f => f.1.isAdditive) = [] := by
    rw [List.filter_eq_nil_iff]
    intro f hf
    simp [hlater f hf]
  simp [loosest, hop, hfilter]

/-- Without additive operators the last operator is the loosest one. -/
theorem loosest_multiplicative (hearlier : ∀ f ∈ earlier, f.1.isAdditive = false)
    (hop : op.isAdditive = false) :
    loosest (earlier ++ [(op, spot)]) = some (op, spot) := by
  have hfilter : earlier.filter (fun f => f.1.isAdditive) = [] := by
    rw [List.filter_eq_nil_iff]
    intro f hf
    simp [hearlier f hf]
  simp [loosest, hop, hfilter]

end Loosest

/-- Two operands are split at the operator between them if it is the loosest one. -/
theorem splitArithmetic_of_loosest {op : Arithmetic} (hleft : Text.Tight s)
    (hright : Text.Tight t) (htext : Uncompared (s ++ (spaced [op.symbol] ++ t)))
    (hloosest : loosest (operators none (topLevel (s ++ (spaced [op.symbol] ++ t)))) =
      some (op, operatorSpot op s.reverse t)) :
    splitArithmetic (s ++ (spaced [op.symbol] ++ t)) = some (s ++ [' '], op, ' ' :: t) := by
  -- A text with an arrow is never split, but an arrow needs the start of a comparison.
  have harrow : (topLevel (s ++ (spaced [op.symbol] ++ t))).any isArrow = false := by
    rw [List.any_eq_false]
    intro spot hspot
    have hchar := htext.char_not_mem [] spot hspot
    have hne : spot.char ≠ '=' := by
      intro heq
      exact hchar (by rw [heq]; decide)
    simp [isArrow, hne]
  have hspot : (operatorSpot op s.reverse t).left = s ++ [' '] := by
    simp [operatorSpot, Spot.left]
  have hafter : (operatorSpot op s.reverse t).after = ' ' :: t := rfl
  have htrim : Text.trim (s ++ [' ']) = s := hleft.trim_concat rfl
  have htrim' : Text.trim (' ' :: t) = t := hright.trim_cons rfl
  simp [splitArithmetic, harrow, hloosest, hspot, hafter, htrim, htrim', hleft.ne_nil,
    hright.ne_nil]

theorem operators_scanFrom_nil (previous : Option Char) (before : List Char) :
    operators previous (scanFrom .all (.code 0) before []) = [] := rfl

/-- A product is split at its last operator. -/
theorem splitArithmetic_product (left : Product) (op : Arithmetic)
    (tight : op.isAdditive = false) (right : Atom) :
    splitArithmetic (Product.join left op tight right).text =
      some (left.text ++ [' '], op, ' ' :: right.text) := by
  obtain ⟨found, last, hfound, hlast, hleft⟩ :=
    left.operators_append Option.all_none [] (spaced [op.symbol] ++ right.text)
  obtain ⟨last', -, hright⟩ := right.shape.operators_append (all_isOperatorChar_symbol op)
    ((spaced [op.symbol]).reverse ++ (left.text.reverse ++ [])) []
  rw [List.append_nil right.text, operators_scanFrom_nil] at hright
  rw [operators_spaced hlast, hright, List.append_nil] at hleft
  refine splitArithmetic_of_loosest left.tight right.shape.tight
    (Product.join left op tight right).uncompared ?_
  rw [topLevel, Text.scan, ScanState.start, hleft]
  exact loosest_multiplicative hfound tight

/-- A grouping is split at its last additive operator. -/
theorem splitArithmetic_grouping (left : Grouping) (op : Arithmetic)
    (loose : op.isAdditive = true) (right : Product) :
    splitArithmetic (Grouping.join left op loose right).text =
      some (left.text ++ [' '], op, ' ' :: right.text) := by
  obtain ⟨found, last, hlast, hleft⟩ :=
    left.operators_append Option.all_none [] (spaced [op.symbol] ++ right.text)
  obtain ⟨found', last', hfound', -, hright⟩ :=
    right.operators_append (all_isOperatorChar_symbol op)
      ((spaced [op.symbol]).reverse ++ (left.text.reverse ++ [])) []
  rw [List.append_nil right.text, operators_scanFrom_nil, List.append_nil found'] at hright
  rw [operators_spaced hlast, hright, List.append_nil left.text.reverse] at hleft
  -- The right side has no additive operator, whatever the left side has.
  refine splitArithmetic_of_loosest left.tight right.tight
    (Grouping.join left op loose right).uncompared ?_
  rw [topLevel, Text.scan, ScanState.start, hleft]
  exact loosest_additive loose hfound'

/-! ### Values -/

/-- What follows the first atom of a printed product starts with a space, once there
is a space behind the product. -/
theorem Product.exists_atom (product : Product) (t : Text) :
    ∃ (atom : Atom) (more : Text), product.text ++ ' ' :: t = atom.text ++ ' ' :: more := by
  induction product generalizing t with
  | atom first => exact ⟨first, t, rfl⟩
  | join left op tight right ih =>
    simpa [text, spaced] using ih (op.symbol :: ' ' :: (right.text ++ ' ' :: t))

theorem Grouping.exists_atom (grouping : Grouping) (t : Text) :
    ∃ (atom : Atom) (more : Text), grouping.text ++ ' ' :: t = atom.text ++ ' ' :: more := by
  induction grouping generalizing t with
  | product first => exact first.exists_atom t
  | join left op loose right ih =>
    simpa [text, spaced] using ih (op.symbol :: ' ' :: (right.text ++ ' ' :: t))

theorem Grouping.atom?_append_spaced (env : Environment) (grouping : Grouping)
    (symbol t : Text) : atom? env (grouping.text ++ (spaced symbol ++ t)) = none := by
  obtain ⟨atom, more, htext⟩ := grouping.exists_atom (symbol ++ [' '] ++ t)
  rw [spaced, List.cons_append, htext, atom.shape.atom?_append_space]

theorem evaluate_concat_space (h : Text.Tight t) : evaluate env (t ++ [' ']) = evaluate env t :=
  evaluate_congr_trim (by rw [h.trim_concat rfl, h.trim_eq])

theorem evaluate_cons_space (h : Text.Tight t) : evaluate env (' ' :: t) = evaluate env t :=
  evaluate_congr_trim (by rw [h.trim_cons rfl, h.trim_eq])

theorem evaluate_atom (atom : Atom) : evaluate env atom.text = atom.value env := by
  apply evaluate_of_atom?
  rw [atom.shape.tight.trim_eq, atom?_text]

/-- An operator that splits its text is applied to the values of both sides. -/
theorem evaluate_join {op : Arithmetic} (hs : Text.Tight s) (ht : Text.Tight t)
    (hatom : atom? env (s ++ (spaced [op.symbol] ++ t)) = none)
    (htext : Uncompared (s ++ (spaced [op.symbol] ++ t)))
    (hsplit : splitArithmetic (s ++ (spaced [op.symbol] ++ t)) = some (s ++ [' '], op, ' ' :: t)) :
    evaluate env (s ++ (spaced [op.symbol] ++ t)) =
      operate (s ++ (spaced [op.symbol] ++ t)) op (evaluate env s) (evaluate env t) := by
  -- Evaluation trims first, which changes neither the text nor its two sides.
  have htrim := (hs.append ht (spaced [op.symbol])).trim_eq
  have hcomparison := htext.splitComparison_eq_none
  rw [← htrim] at hatom hcomparison hsplit
  rw [evaluate_of_splitArithmetic hatom hcomparison hsplit, htrim, evaluate_concat_space hs,
    evaluate_cons_space ht, combine_eq_operate]

theorem evaluate_product (product : Product) :
    evaluate env product.text = product.value env := by
  induction product with
  | atom first => exact evaluate_atom first
  | join left op tight right ih =>
    rw [Product.value, ← ih, ← evaluate_atom right]
    exact evaluate_join left.tight right.shape.tight
      ((Grouping.product left).atom?_append_spaced env [op.symbol] right.text)
      (Product.join left op tight right).uncompared (splitArithmetic_product left op tight right)

theorem evaluate_grouping (grouping : Grouping) :
    evaluate env grouping.text = grouping.value env := by
  induction grouping with
  | product first => exact evaluate_product first
  | join left op loose right ih =>
    rw [Grouping.value, ← ih, ← evaluate_product right]
    exact evaluate_join left.tight right.tight
      (left.atom?_append_spaced env [op.symbol] right.text)
      (Grouping.join left op loose right).uncompared (splitArithmetic_grouping left op loose right)

theorem Fragment.tight (fragment : Fragment) : Text.Tight fragment.text := by
  induction fragment with
  | chain only =>
    rw [text, ← only.text_group]
    exact only.group.tight
  | compare first op rest ih =>
    rw [text, ← first.text_group]
    exact first.group.tight.append ih _

/-- The value of a printed expression is that of its structure: chains group with
`*`, `/` and `%` before `+` and `-` and to the left, and comparisons nest to the
right. -/
theorem evaluate_fragment (env : Environment) (fragment : Fragment) :
    evaluate env fragment.text = fragment.value env := by
  induction fragment with
  | chain only =>
    rw [Fragment.text, ← only.text_group, evaluate_grouping, Fragment.value, Chain.value]
  | compare first op rest ih =>
    rw [Fragment.text, ← first.text_group]
    -- The first chain shows no comparison, so the one behind it is the leftmost.
    have htrim := (first.group.tight.append rest.tight (spaced op.symbol)).trim_eq
    have hatom := first.group.atom?_append_spaced env op.symbol rest.text
    have hsplit := first.group.uncompared.splitComparison_append op rest.text
    rw [← htrim] at hatom hsplit
    rw [evaluate_of_splitComparison hatom hsplit, evaluate_concat_space first.group.tight,
      evaluate_cons_space rest.tight, evaluate_grouping, ih, Fragment.value, Chain.value]

/-- A product is computed before the sum that it belongs to, and a difference before the one behind
it. -/
theorem evaluate_fragment_grouped :
    evaluate .empty "1 + 2 * 3 - 0.5 - 0.25".toList = .number 6.25 := by
  let decimal (whole : Char) (fraction : Option Text) (hwhole : isDigits [whole] = true)
      (hfraction : ∀ digits ∈ fraction, isDigits digits = true) : Atom :=
    .decimal ⟨none, [whole], fraction, hwhole, hfraction⟩
  let chain : Chain := .join (.join (.join (.join
    (.atom (decimal '1' none (by decide) (by simp)))
    .add (decimal '2' none (by decide) (by simp)))
    .mul (decimal '3' none (by decide) (by simp)))
    .sub (decimal '0' "5".toList (by decide) (by decide)))
    .sub (decimal '0' "25".toList (by decide) (by decide))
  have htext : (Fragment.chain chain).text = "1 + 2 * 3 - 0.5 - 0.25".toList := by decide
  have hvalue : (Fragment.chain chain).value .empty = .number 6.25 :=
    congrArg Value.number (by decide +kernel)
  rw [← htext, evaluate_fragment, hvalue]

end Stepwise.Expression
