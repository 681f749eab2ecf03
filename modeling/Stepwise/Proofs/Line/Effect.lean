import Stepwise.Proofs.Engine.Effect
import Stepwise.Proofs.Expression.Evaluation
import Stepwise.Proofs.Line.Naming

/-!
# What lines do

The effect of a line, read backwards: from an effect to the kind of line that has it, and
from a failure to its cause.

## Main definitions

* `Stepwise.Line.Does` — the effects that a line can have.

## Main results

* `Stepwise.Line.effect_error` — only assignments and loop headers fail, on a constant.
* `Stepwise.Line.does_of_effect` — a line that does not fail has one of its effects.
-/

namespace Stepwise

/-- The effect leaves the variables and the trackers alone, and it is recorded as output only
where it prints. -/
def Effect.isPassive : Effect → Bool
  | .print _ => true
  | .note kind _ => kind != .output
  | _ => false

namespace Line

open Expression (evaluate)

variable {env : Environment} {line : Line} {cause : StepError} {effect : Effect}

/-! ### Lines that fail -/

/-- An assignment only fails on a constant. -/
theorem assignmentEffect_error (h : assignmentEffect env line = .error cause) :
    ∃ name, env.isConstant name = true ∧ cause = .constReassignment name line.number := by
  unfold assignmentEffect at h
  split at h
  · cases h
  · rename_i name right _
    split at h
    · rename_i hconstant
      cases h
      exact ⟨name, hconstant, rfl⟩
    · cases h

/-- The header of a counting loop only fails on a constant. -/
theorem forEffect_error {header : ForHeader} (h : forEffect env line header = .error cause) :
    ∃ name, env.isConstant name = true ∧ cause = .constReassignment name line.number := by
  unfold forEffect at h
  simp only at h
  split at h
  · split at h
    · rename_i hconstant
      rw [Bool.and_eq_true] at hconstant
      cases h
      exact ⟨header.variableName, hconstant.2, rfl⟩
    · cases h
  · cases h

theorem loopEffect_error (h : loopEffect env line = .error cause) :
    ∃ name, env.isConstant name = true ∧ cause = .constReassignment name line.number := by
  unfold loopEffect at h
  split at h
  · cases h
  · split at h
    · exact forEffect_error h
    · cases h

/-- Only assignments and loop headers fail, and only on a constant. -/
theorem effect_error (h : line.effect env = .error cause) :
    (line.kind = .assignment ∨ line.kind = .loop) ∧
      ∃ name, env.isConstant name = true ∧ cause = .constReassignment name line.number := by
  unfold effect at h
  split at h
  case h_2 hkind => exact ⟨.inl hkind, assignmentEffect_error h⟩
  case h_4 hkind => exact ⟨.inr hkind, loopEffect_error h⟩
  all_goals cases h

/-! ### Lines that succeed -/

/-- The effects that a line can have. -/
inductive Does (env : Environment) (line : Line) : Effect → Prop
  /-- Any line can do nothing but record or print. -/
  | pass {effect : Effect} (passive : effect.isPassive = true) : Does env line effect
  /-- Declarations and assignments write the value of an expression, or `undefined`. They
  write a constant only by making it anew. -/
  | write {name description : Text} {value : Value} {constant : Bool}
      (kind : line.kind = .declaration ∨ line.kind = .assignment)
      (origin : value = .undefined ∨ ∃ text, value = evaluate env text)
      (license : env.isConstant name = false ∨ line.Redeclares name) :
      Does env line (.assign name value constant description)
  /-- Loop headers start counting loops. Their variable is a constant only if they make it
  anew. -/
  | start {header : Option Effect.Header} (kind : line.kind = .loop)
      (license : ∀ loop ∈ header,
        env.isConstant loop.variableName = false ∨ line.Redeclares loop.variableName) :
      Does env line (.startLoop header)
  /-- Loop headers meet conditions, and then the variable keeps the number that it has. -/
  | meet {header : Option Effect.Header} {taken : Bool} (kind : line.kind = .loop)
      (current : ∀ loop ∈ header, loop.current = (env.numberOf? loop.variableName).getD 0.0) :
      Does env line (.meetLoop header taken)

/-- A declaration writes, or is only recorded. -/
theorem declarationEffect_does (hkind : line.kind = .declaration) :
    line.Does env (declarationEffect env line) := by
  unfold declarationEffect
  split
  · exact .pass rfl
  · rename_i keyword rest hkeyword
    split
    · exact .pass rfl
    · rename_i name value hdeclared
      obtain ⟨hstatement, hwhole⟩ := declarationKeyword?_eq_some_iff.1 hkeyword
      have hdeclares : line.Declares name :=
        ⟨hkind, keyword, rest, hstatement, hwhole, introduces_of_declared? hdeclared⟩
      refine .write (.inl hkind) ?_ (.inr (.declaration hdeclares))
      unfold declared? at hdeclared
      split at hdeclared
      · cases hdeclared
        exact .inr ⟨_, rfl⟩
      · split at hdeclared
        · cases hdeclared
          exact .inl rfl
        · cases hdeclared

/-- An assignment that does not fail writes, or is only recorded. -/
theorem assignmentEffect_does (hkind : line.kind = .assignment)
    (h : assignmentEffect env line = .ok effect) : line.Does env effect := by
  unfold assignmentEffect at h
  split at h
  · cases h
    exact .pass rfl
  · split at h
    · cases h
    · rename_i hconstant
      cases h
      exact .write (.inr hkind) (.inr ⟨_, rfl⟩) (.inl (Bool.eq_false_iff.2 hconstant))

/-- The condition of a loop header starts its loop with the number that the variable has. -/
theorem conditionHeader?_current {condition : Text} {header : Effect.Header}
    (h : conditionHeader? env condition = some header) :
    header.current = (env.numberOf? header.variableName).getD 0.0 := by
  unfold conditionHeader? at h
  split at h
  · cases h
  · simp only at h
    split at h
    · obtain ⟨bound, _, rfl⟩ := Option.map_eq_some_iff.1 h
      rfl
    · cases h

/-- The header of a counting loop that does not fail starts its loop. -/
theorem forEffect_does {parts : ForHeader} (hcounts : line.Counts parts)
    (h : forEffect env line parts = .ok effect) : line.Does env effect := by
  unfold forEffect at h
  simp only at h
  split at h
  · split at h
    · cases h
    · rename_i hlicense
      cases h
      refine .start hcounts.kind ?_
      rintro loop ⟨⟩
      rw [Bool.and_eq_true, not_and_or] at hlicense
      rcases hlicense with hkeyword | hconstant
      · rw [Option.isNone_iff_eq_none, ← ne_eq, ← Option.isSome_iff_ne_none] at hkeyword
        exact .inr (.header hcounts hkeyword rfl)
      · exact .inl (Bool.eq_false_iff.2 hconstant)
  · cases h
    exact .start hcounts.kind nofun

/-- A loop header that does not fail starts a loop, meets a condition or is only
recorded. -/
theorem loopEffect_does (hkind : line.kind = .loop) (h : loopEffect env line = .ok effect) :
    line.Does env effect := by
  unfold loopEffect at h
  split at h
  · cases h
    exact .meet hkind fun _ hheader => conditionHeader?_current hheader
  · split at h
    · rename_i parts hparts
      exact forEffect_does ((counts_iff hkind).2 hparts) h
    · cases h
      exact .pass rfl

/-- A line that does not fail has one of its effects. -/
theorem does_of_effect (h : line.effect env = .ok effect) : line.Does env effect := by
  unfold Line.effect at h
  split at h
  case h_1 hkind => cases h; exact declarationEffect_does hkind
  case h_2 hkind => exact assignmentEffect_does hkind h
  case h_4 hkind => exact loopEffect_does hkind h
  -- The other six kinds never write, whichever of their branches is taken.
  all_goals
    cases h
    refine .pass ?_
  case h_3 =>
    unfold conditionalEffect
    simp only
    split <;> rfl
  case h_5 => unfold definitionEffect; split <;> rfl
  case h_6 =>
    unfold returnEffect
    split
    · rfl
    · simp only
      split <;> rfl
  case h_7 => unfold outputEffect; split <;> rfl
  case h_8 => unfold callEffect; split <;> rfl
  case h_9 => rfl

end Line

end Stepwise
