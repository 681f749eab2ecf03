import Stepwise.Proofs.Line.Naming

/-!
# Kinds of lines

A line has the kind of the first shape that its text fits. Here the kinds are described
without that order: for a declaration and an assignment it is enough that the text has the
shape, and a return only has to be no assignment.

## Main results

* `Stepwise.Line.kindOf_eq_declaration_iff`, `kindOf_eq_assignment_iff`, `kindOf_eq_return_iff`
  — what makes a text a declaration, an assignment, a return.
* `Stepwise.Line.kindOf_output` — what makes a text that starts with `console.` an output call.
-/

namespace Stepwise.Line

open Text (afterKeyword continuesWord isBlank isWordChar)

variable {text rest : Text}

/-! ### Shapes -/

/-- A comment starts with a slash or a star. -/
theorem isComment_cons {c : Char} (hslash : c ≠ '/') (hstar : c ≠ '*') (rest : Text) :
    Text.isComment (c :: rest) = false := by
  unfold Text.isComment
  split
  · rename_i heq
    exact absurd (List.cons.inj heq).1 hslash
  · rename_i heq
    exact absurd (List.cons.inj heq).1 hslash
  · rename_i heq
    exact absurd (List.cons.inj heq).1 hstar
  · rfl

theorem continuesWord_of_startsBlank (h : startsBlank rest = true) :
    continuesWord rest = false := by
  cases rest with
  | nil => rfl
  | cons c rest => exact Text.isWordChar_of_isBlank h

/-- A declaration is a declaring word, white space and a word. -/
theorem isDeclaration_iff :
    isDeclaration text = true ↔ ∃ (keyword : Keyword) (rest : Text), text = keyword.text ++ rest ∧
      startsBlank rest = true ∧ (Text.trimLeft rest).head?.any isWordChar = true := by
  unfold isDeclaration
  constructor
  · intro h
    split at h
    · rename_i keyword rest hkeyword
      rw [Bool.and_eq_true] at h
      exact ⟨keyword, rest, (declarationKeyword?_eq_some_iff.1 hkeyword).1, h.1, h.2⟩
    · cases h
  · rintro ⟨keyword, rest, rfl, hblank, hword⟩
    have hkeyword : declarationKeyword? (keyword.text ++ rest) = some (keyword, rest) :=
      declarationKeyword?_eq_some_iff.2 ⟨rfl, continuesWord_of_startsBlank hblank⟩
    rw [hkeyword]
    dsimp only
    rw [hblank, hword]
    rfl

/-- What follows `return` is nothing, starts with white space, or starts with a semicolon. -/
theorem returnExpression?_eq_some_iff :
    returnExpression? text = some rest ↔ text = "return".toList ++ rest ∧
      (rest = [] ∨ startsBlank rest = true ∨ rest.head? = some ';') := by
  have hrest : (rest.isEmpty || startsBlank rest || rest.head? == some ';') = true ↔
      rest = [] ∨ startsBlank rest = true ∨ rest.head? = some ';' := by simp [or_assoc]
  rw [returnExpression?, Option.filter_eq_some_iff, Text.afterKeyword_eq_some_iff, hrest]
  constructor
  · rintro ⟨⟨htext, _⟩, hend⟩
    exact ⟨htext, hend⟩
  · rintro ⟨htext, hend⟩
    refine ⟨⟨htext, ?_⟩, hend⟩
    rcases hend with rfl | hblank | hsemicolon
    · rfl
    · exact continuesWord_of_startsBlank hblank
    · obtain ⟨rest, rfl⟩ := List.head?_eq_some_iff.1 hsemicolon
      rfl

/-! ### Kinds -/

/-- A text of one of these kinds has the shape of that kind, and a return has no shape that is
tried before. -/
theorem shape_of_kindOf (text : Text) :
    (kindOf text = .declaration → isDeclaration text = true) ∧
      (kindOf text = .assignment → (assignmentParts? text).isSome = true) ∧
      (kindOf text = .return_ →
        (returnExpression? text).isSome = true ∧ (assignmentParts? text).isSome = false) := by
  unfold kindOf
  -- Only the order of the tests matters, so what they test is forgotten.
  generalize (text.isEmpty || Text.isComment text) = start, isDeclaration text = declaration,
    (assignmentParts? text).isSome = assignment, isConditional text = conditional,
    isLoop text = loop, (functionName? text).isSome = definition,
    (returnExpression? text).isSome = return_, (outputArguments? text).isSome = output,
    (callName? text).isSome = call
  revert start declaration assignment conditional loop definition return_ output call
  decide

/-- A text is a declaration if it has the shape of one. -/
theorem kindOf_eq_declaration_iff : kindOf text = .declaration ↔ isDeclaration text = true := by
  constructor
  · exact (shape_of_kindOf text).1
  · intro h
    obtain ⟨keyword, rest, rfl, -, -⟩ := isDeclaration_iff.1 h
    have hstart : ((keyword.text ++ rest).isEmpty || Text.isComment (keyword.text ++ rest)) =
        false := by cases keyword <;> rfl
    rw [kindOf, hstart, h]
    rfl

/-- A text is an assignment if it has the shape of one. -/
theorem kindOf_eq_assignment_iff :
    kindOf text = .assignment ↔ ∃ name right, IsAssignment text name right := by
  constructor
  · intro h
    obtain ⟨⟨name, right⟩, hparts⟩ := Option.isSome_iff_exists.1 ((shape_of_kindOf text).2.1 h)
    exact ⟨name, right, assignmentParts?_eq_some_iff.1 hparts⟩
  · rintro ⟨name, right, h⟩
    have hdeclaration : isDeclaration text = false := by
      rw [isDeclaration, h.declarationKeyword?_eq_none]
    have hstart : (text.isEmpty || Text.isComment text) = false := by
      obtain ⟨c, others, rfl, hc⟩ := h.exists_cons
      have hmarks := Text.not_mem_marks_of_isWordChar hc
      have hslash : c ≠ '/' := fun heq => hmarks (heq ▸ by decide)
      have hstar : c ≠ '*' := fun heq => hmarks (heq ▸ by decide)
      exact isComment_cons hslash hstar others
    rw [kindOf, hstart, hdeclaration, assignmentParts?_eq_some_iff.2 h]
    rfl

/-- A text is a return if it has the shape of one and is no assignment to a variable of that
name. -/
theorem kindOf_eq_return_iff :
    kindOf text = .return_ ↔
      (∃ rest, returnExpression? text = some rest) ∧ assignmentParts? text = none := by
  constructor
  · intro h
    obtain ⟨hreturn, hassignment⟩ := (shape_of_kindOf text).2.2 h
    rw [Option.isSome_eq_false_iff, Option.isNone_iff_eq_none] at hassignment
    exact ⟨Option.isSome_iff_exists.1 hreturn, hassignment⟩
  · rintro ⟨⟨rest, hreturn⟩, hassignment⟩
    obtain ⟨rfl, -⟩ := returnExpression?_eq_some_iff.1 hreturn
    rw [kindOf, hassignment, hreturn]
    rfl

/-- A text that starts with `console.` is an output call if it has the arguments of one. -/
theorem kindOf_output (h : (outputArguments? ("console.".toList ++ rest)).isSome = true) :
    kindOf ("console.".toList ++ rest) = .output := by
  have hassignment : assignmentParts? ("console.".toList ++ rest) = none := rfl
  have hfunction : functionName? ("console.".toList ++ rest) = none := rfl
  have hreturn : returnExpression? ("console.".toList ++ rest) = none := rfl
  rw [kindOf, hassignment, hfunction, hreturn, h]
  rfl

end Stepwise.Line
