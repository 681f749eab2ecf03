import Stepwise.Expression.Evaluate
import Stepwise.Proofs.Environment
import Stepwise.Proofs.Text.Trimming

/-!
# Evaluation, one case at a time

A fragment has its value in one of four ways: it is a literal or a name, it is split at a
comparison, it is split at an arithmetic operator, or it stands for itself. There is one
equation for each way, and facts about all values follow from the four.

## Main results

* `Stepwise.Expression.evaluate_of_atom?`, `evaluate_of_splitComparison`,
  `evaluate_of_splitArithmetic`, `evaluate_of_unsplit` — the four ways to a value.
* `Stepwise.Expression.evaluate_sameAs_self` — in a proper environment every value is the
  same as itself.
-/

namespace Stepwise.Expression

variable {env : Environment} {s t text left right : Text} {value : Value}

/-! ### The four ways to a value -/

theorem evaluate_of_atom? (h : atom? env t.trim = some value) :
    evaluate env t = value := by
  rw [evaluate]
  simp [h]

theorem evaluate_of_splitComparison {op : Comparison} (hatom : atom? env t.trim = none)
    (hsplit : splitComparison t.trim = some (left, op, right)) :
    evaluate env t = .bool (op.holds (evaluate env left) (evaluate env right)) := by
  rw [evaluate]
  simp only [hatom]
  split
  · rename_i heq
    rw [hsplit] at heq
    cases heq
    rfl
  · rename_i heq
    rw [hsplit] at heq
    cases heq

theorem evaluate_of_splitArithmetic {op : Arithmetic} (hatom : atom? env t.trim = none)
    (hcomparison : splitComparison t.trim = none)
    (hsplit : splitArithmetic t.trim = some (left, op, right)) :
    evaluate env t = combine t.trim op (evaluate env left) (evaluate env right) := by
  rw [evaluate]
  simp only [hatom]
  split
  · rename_i heq
    rw [hcomparison] at heq
    cases heq
  · split
    · rename_i heq
      rw [hsplit] at heq
      cases heq
      rfl
    · rename_i heq
      rw [hsplit] at heq
      cases heq

theorem evaluate_of_unsplit (hatom : atom? env t.trim = none)
    (hcomparison : splitComparison t.trim = none) (harithmetic : splitArithmetic t.trim = none) :
    evaluate env t = .symbolic t.trim := by
  rw [evaluate]
  simp only [hatom]
  split
  · rename_i heq
    rw [hcomparison] at heq
    cases heq
  · split
    · rename_i heq
      rw [harithmetic] at heq
      cases heq
    · rfl

theorem evaluate_congr_trim (h : s.trim = t.trim) : evaluate env s = evaluate env t := by
  rw [evaluate, evaluate, h]

theorem evaluate_cons_blank {c : Char} (hc : Text.isBlank c = true) (t : Text) :
    evaluate env (c :: t) = evaluate env t :=
  evaluate_congr_trim (Text.trim_cons hc t)

theorem evaluate_trimRight (t : Text) : evaluate env (Text.trimRight t) = evaluate env t :=
  evaluate_congr_trim (Text.trim_trimRight t)

/-! ### Values are the same as themselves -/

/-- No named literal is a document. -/
theorem keywordLiteral?_ne_structured (text : Text) (json : Json) :
    keywordLiteral? text ≠ some (.structured json) := by
  intro h
  unfold keywordLiteral? at h
  split at h
  · cases h
  split at h
  · cases h
  split at h
  · cases h
  split at h
  · cases h
  cases h

/-- A text in brackets is a document that was read, or stands for itself. -/
theorem structuredLiteral?_sameAs_self (h : structuredLiteral? text = some value) :
    value.sameAs value = true := by
  refine Value.sameAs_self ?_
  rintro json rfl
  unfold structuredLiteral? at h
  simp only at h
  split at h
  · split at h
    · rename_i document hparse
      cases h
      exact Json.sameAs_self_of_parse? hparse
    · cases h
  · cases h

/-- A literal or a name has a value that is the same as itself. -/
theorem atom?_sameAs_self (h : env.Proper) (hatom : atom? env text = some value) :
    value.sameAs value = true := by
  unfold atom? at hatom
  rcases Option.or_eq_some_iff.1 hatom with hstr | ⟨_, hatom⟩
  · obtain ⟨_, _, rfl⟩ := Option.map_eq_some_iff.1 hstr
    exact Value.sameAs_self nofun
  rcases Option.or_eq_some_iff.1 hatom with hnumber | ⟨_, hatom⟩
  · obtain ⟨_, _, rfl⟩ := Option.map_eq_some_iff.1 hnumber
    exact Value.sameAs_self nofun
  rcases Option.or_eq_some_iff.1 hatom with hkeyword | ⟨_, hatom⟩
  · refine Value.sameAs_self ?_
    rintro json rfl
    exact absurd hkeyword (keywordLiteral?_ne_structured text json)
  rcases Option.or_eq_some_iff.1 hatom with hstructured | ⟨_, hatom⟩
  · exact structuredLiteral?_sameAs_self hstructured
  · split at hatom
    · cases hatom
      cases hvalue : env.valueOf? text with
      | none => exact Value.sameAs_self nofun
      | some value => exact h.sameAs_of_valueOf? hvalue
    · cases hatom

/-- Operators make numbers, strings and texts, which are the same as themselves. -/
theorem combine_sameAs_self (text : Text) (op : Arithmetic) (left right : Value) :
    (combine text op left right).sameAs (combine text op left right) = true := by
  refine Value.sameAs_self ?_
  intro json h
  unfold combine at h
  split at h
  · cases h
  · split at h <;> cases h

/-- In a proper environment every expression has a value that is the same as itself. -/
theorem evaluate_sameAs_self (h : env.Proper) (t : Text) :
    (evaluate env t).sameAs (evaluate env t) = true := by
  cases hatom : atom? env t.trim with
  | some value =>
    rw [evaluate_of_atom? hatom]
    exact atom?_sameAs_self h hatom
  | none =>
    cases hcomparison : splitComparison t.trim with
    | some parts =>
      rw [evaluate_of_splitComparison hatom hcomparison]
      exact Value.sameAs_self nofun
    | none =>
      cases harithmetic : splitArithmetic t.trim with
      | some parts =>
        rw [evaluate_of_splitArithmetic hatom hcomparison harithmetic]
        exact combine_sameAs_self _ _ _ _
      | none =>
        rw [evaluate_of_unsplit hatom hcomparison harithmetic]
        exact Value.sameAs_self nofun

end Stepwise.Expression
