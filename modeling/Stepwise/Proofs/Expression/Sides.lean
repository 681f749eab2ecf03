import Stepwise.Proofs.Expression.Evaluation
import Stepwise.Proofs.Expression.Shifts
import Stepwise.Proofs.Text.Items

/-!
# The sides of an operator, and the end of evaluation

A fragment is split at an operator that a scan shows. The two sides and the operator between them
are the text again, so each side is shorter than the text, and splitting comes to an end after at
most as many levels as the fragment has characters. To say so, evaluation is also defined with a
bound on the number of calls that may be open at once; the bound is never reached.

## Main definitions

* `Stepwise.Expression.evaluateWithin` — evaluation with a bound on its depth.

## Main results

* `Stepwise.Expression.exists_spot_of_splitArithmetic` — where an arithmetic operator is found.
* `Stepwise.Expression.evaluateWithin_eq` — a depth beyond the length of the fragment suffices.
* `Stepwise.Expression.splits_and_ends` — splitting loses nothing, and evaluation ends.
-/

namespace Stepwise.Expression

open Text (Spot byteLength items topLevel)

variable {text left right fragment : Text} {env : Environment} {depth : Nat}

/-! ### Where an operator is found -/

/-- A comparison starts at an item of the scan. -/
theorem mem_items_of_splitComparison {op : Comparison}
    (h : splitComparison text = some (left, op, right)) :
    ∃ c, op.symbol.head? = some c ∧ (byteLength left, c) ∈ items text := by
  obtain ⟨spot, hspot, hat, rfl⟩ := exists_spot_of_splitComparison h
  have hrest : spot.char :: spot.after = op.symbol ++ right := (of_comparisonAt? hat).1
  refine ⟨spot.char, ?_, ?_⟩
  · cases op <;> rw [(List.cons.inj hrest).1] <;> rfl
  · rw [Spot.left, Text.byteLength_reverse]
    exact List.mem_map_of_mem hspot

/-- Where an arithmetic operator is split off, it is found at a spot with something to see on
either side. -/
theorem exists_spot_of_splitArithmetic {op : Arithmetic}
    (h : splitArithmetic text = some (left, op, right)) :
    ∃ spot ∈ topLevel text, spot.char = op.symbol ∧ spot.left = left ∧ spot.after = right ∧
      left.trim ≠ [] ∧ right.trim ≠ [] := by
  simp only [splitArithmetic] at h
  split at h
  · cases h
  split at h
  · cases h
  rename_i op' spot hloosest
  split at h
  · cases h
  rename_i hblank
  simp only [Bool.or_eq_true, List.isEmpty_iff, not_or] at hblank
  cases h
  obtain ⟨hmem, hchar⟩ := mem_of_mem_operators (mem_of_loosest hloosest)
  exact ⟨spot, hmem, hchar, rfl, rfl, hblank⟩

/-! ### Evaluation within a depth -/

/-- The value of a fragment, provided that no more than `depth` calls are open at once. -/
def evaluateWithin (env : Environment) : Nat → Text → Option Value
  | 0, _ => none
  | depth + 1, fragment =>
    let text := fragment.trim
    match atom? env text with
    | some value => some value
    | none =>
      match splitComparison text with
      | some (left, op, right) => do
        let a ← evaluateWithin env depth left
        let b ← evaluateWithin env depth right
        return .bool (op.holds a b)
      | none =>
        match splitArithmetic text with
        | some (left, op, right) => do
          let a ← evaluateWithin env depth left
          let b ← evaluateWithin env depth right
          return combine text op a b
        | none => some (.symbolic text)

/-- Evaluation stays within any depth beyond the length of the fragment. -/
theorem evaluateWithin_eq (h : fragment.length < depth) :
    evaluateWithin env depth fragment = some (evaluate env fragment) := by
  induction depth generalizing fragment with
  | zero => exact absurd h (Nat.not_lt_zero _)
  | succ depth ih =>
    have htrim := Text.length_trim_le fragment
    rw [evaluateWithin]
    cases hatom : atom? env fragment.trim with
    | some value => rw [evaluate_of_atom? hatom]
    | none =>
      cases hcomparison : splitComparison fragment.trim with
      | some found =>
        obtain ⟨left, op, right⟩ := found
        obtain ⟨hleft, hright⟩ := length_of_splitComparison hcomparison
        rw [evaluate_of_splitComparison hatom hcomparison]
        simp only [ih (Nat.lt_of_lt_of_le hleft (by omega)),
          ih (Nat.lt_of_lt_of_le hright (by omega))]
        rfl
      | none =>
        cases harithmetic : splitArithmetic fragment.trim with
        | some found =>
          obtain ⟨left, op, right⟩ := found
          obtain ⟨hleft, hright⟩ := length_of_splitArithmetic harithmetic
          rw [evaluate_of_splitArithmetic hatom hcomparison harithmetic]
          simp only [ih (Nat.lt_of_lt_of_le hleft (by omega)),
            ih (Nat.lt_of_lt_of_le hright (by omega))]
          rfl
        | none => rw [evaluate_of_unsplit hatom hcomparison harithmetic]

/-- Splitting loses nothing, and evaluation ends. Where a text is split at a comparison or at an
arithmetic operator, its sides with the operator between them are the text, the operator starts at
an item of the scan right behind the left side, and neither side of an arithmetic operator is
blank. So each side is shorter than the text, and evaluation gives a value for every fragment in
every environment, with at most one more call open at once than the fragment has characters. -/
theorem splits_and_ends :
    (∀ (text left right : Text) (op : Comparison),
      splitComparison text = some (left, op, right) →
        left ++ op.symbol ++ right = text ∧
        (∃ c, op.symbol.head? = some c ∧ (byteLength left, c) ∈ items text) ∧
        left.length < text.length ∧ right.length < text.length) ∧
    (∀ (text left right : Text) (op : Arithmetic),
      splitArithmetic text = some (left, op, right) →
        left ++ [op.symbol] ++ right = text ∧
        (byteLength left, op.symbol) ∈ items text ∧
        left.trim ≠ [] ∧ right.trim ≠ [] ∧
        left.length < text.length ∧ right.length < text.length) ∧
    ∀ (env : Environment) (fragment : Text) (depth : Nat), fragment.length < depth →
      evaluateWithin env depth fragment = some (evaluate env fragment) := by
  refine ⟨fun text left right op h => ?_, fun text left right op h => ?_,
    fun env fragment depth h => evaluateWithin_eq h⟩
  · exact ⟨(eq_of_splitComparison h).symm, mem_items_of_splitComparison h,
      length_of_splitComparison h⟩
  · obtain ⟨spot, hspot, hchar, hleft, -, hblank, hblank'⟩ := exists_spot_of_splitArithmetic h
    refine ⟨?_, ?_, hblank, hblank', length_of_splitArithmetic h⟩
    · rw [eq_of_splitArithmetic h, List.append_assoc]
      rfl
    · rw [← hleft, ← hchar, Spot.left, Text.byteLength_reverse]
      exact List.mem_map_of_mem hspot

/-- A comparison and a product next to a character of two bytes: both are split where the scan
shows the operator, and evaluation stays within the depth. -/
theorem splits_and_ends_nested :
    let text := "é * (b <= c) <= d".toList
    splitComparison text = some ("é * (b <= c) ".toList, .le, " d".toList) ∧
      (14, '<') ∈ items text ∧
      splitArithmetic "é * (b <= c)".toList = some ("é ".toList, .mul, " (b <= c)".toList) ∧
      (3, '*') ∈ items "é * (b <= c)".toList ∧
      text.length < 18 ∧
      evaluateWithin .empty 18 text = some (evaluate .empty text) := by
  intro text
  have hcomparison : splitComparison text =
      some ("é * (b <= c) ".toList, .le, " d".toList) := by decide
  have harithmetic : splitArithmetic "é * (b <= c)".toList =
      some ("é ".toList, .mul, " (b <= c)".toList) := by decide
  have hlength : text.length < 18 := by decide
  obtain ⟨hcomparisons, harithmetics, hends⟩ := splits_and_ends
  obtain ⟨-, ⟨c, hc, hitem⟩, -⟩ := hcomparisons _ _ _ _ hcomparison
  obtain ⟨-, hitem', -⟩ := harithmetics _ _ _ _ harithmetic
  cases hc
  exact ⟨hcomparison, hitem, harithmetic, hitem', hlength, hends .empty text 18 hlength⟩

end Stepwise.Expression
