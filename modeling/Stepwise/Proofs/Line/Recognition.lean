import Stepwise.Proofs.Line.Kinds

/-!
# Recognized lines

Every shape of statement has a word in it, and the lines that execution passes over have
none. So a line of any kind but `other` is executable. The classifier reads the whole text of
a declaration and its handler only the statement at its start; both find the same declaring
word and the same name.

## Main definitions

* `Stepwise.Text.HasWord` — a text with a word in it.

## Main results

* `Stepwise.Line.hasWord_of_kindOf_ne` — recognized texts have a word in them.
* `Stepwise.Line.isExecutable_of_kind_ne` — recognized lines are executable.
* `Stepwise.Line.exists_cut_declaration` — cutting a statement keeps the declared name.
-/

namespace Stepwise

/-! ### Texts with words -/

namespace Text

variable {s text keyword rest : Text}

/-- The text has a word in it. -/
def HasWord (text : Text) : Prop :=
  ∃ c ∈ text, isWordChar c = true

theorem HasWord.of_subset (h : HasWord s) (hsubset : s ⊆ text) : HasWord text := by
  obtain ⟨c, hmem, hc⟩ := h
  exact ⟨c, hsubset hmem, hc⟩

theorem hasWord_cons {c : Char} (hc : isWordChar c = true) (text : Text) : HasWord (c :: text) :=
  ⟨c, List.mem_cons_self, hc⟩

theorem hasWord_of_afterLead (hkeyword : HasWord keyword)
    (h : afterLead keyword text = some rest) : HasWord text := by
  rw [afterLead_eq_some_iff.1 h]
  exact hkeyword.of_subset (List.subset_append_left keyword rest)

theorem hasWord_of_afterKeyword (hkeyword : HasWord keyword)
    (h : (afterKeyword keyword text).isSome = true) : HasWord text := by
  obtain ⟨rest, hrest⟩ := Option.isSome_iff_exists.1 h
  exact hasWord_of_afterLead hkeyword (Option.filter_eq_some_iff.1 hrest).1

end Text

namespace Line

open Text (HasWord afterKeyword continuesWord cutStatement isBlank isWordChar trimRight)

variable {text name right rest trail : Text} {keyword : Keyword}

/-! ### Shapes of statements -/

theorem hasWord_of_isDeclaration (h : isDeclaration text = true) : HasWord text := by
  obtain ⟨keyword, rest, rfl, -, -⟩ := isDeclaration_iff.1 h
  cases keyword <;> exact Text.hasWord_cons (by decide) _

theorem hasWord_of_assignmentParts? (h : (assignmentParts? text).isSome = true) :
    HasWord text := by
  obtain ⟨⟨name, right⟩, hparts⟩ := Option.isSome_iff_exists.1 h
  obtain ⟨c, others, rfl, hc⟩ := (assignmentParts?_eq_some_iff.1 hparts).exists_cons
  exact Text.hasWord_cons hc others

theorem hasWord_of_isConditional (h : isConditional text = true) : HasWord text := by
  rw [isConditional, Bool.or_eq_true] at h
  have hbranch : HasWord (dropClosingBraces text) := by
    rcases h with h | h
    · exact Text.hasWord_of_afterKeyword (Text.hasWord_cons (by decide) _) h
    · exact Text.hasWord_of_afterKeyword (Text.hasWord_cons (by decide) _) h
  exact hbranch.of_subset (List.dropWhile_suffix _).subset

theorem hasWord_of_isLoop (h : isLoop text = true) : HasWord text := by
  obtain ⟨keyword, hmem, hkeyword⟩ := List.any_eq_true.1 h
  refine Text.hasWord_of_afterKeyword ?_ hkeyword
  simp only [List.mem_cons, List.not_mem_nil, or_false] at hmem
  rcases hmem with rfl | rfl | rfl <;> exact Text.hasWord_cons (by decide) _

theorem hasWord_of_functionName? (h : (functionName? text).isSome = true) : HasWord text := by
  by_cases hasync : (afterKeyword "async".toList text).isSome = true
  · exact Text.hasWord_of_afterKeyword (Text.hasWord_cons (by decide) _) hasync
  · rw [Bool.not_eq_true, Option.isSome_eq_false_iff, Option.isNone_iff_eq_none] at hasync
    rw [functionName?, hasync, Option.map_none, Option.getD_none] at h
    split at h
    · cases h
    · rename_i hfunction
      exact Text.hasWord_of_afterKeyword (Text.hasWord_cons (by decide) _)
        (Option.isSome_of_eq_some hfunction)

theorem hasWord_of_returnExpression? (h : (returnExpression? text).isSome = true) :
    HasWord text := by
  obtain ⟨rest, hrest⟩ := Option.isSome_iff_exists.1 h
  rw [(returnExpression?_eq_some_iff.1 hrest).1]
  exact Text.hasWord_cons (by decide) _

theorem hasWord_of_outputArguments? (h : (outputArguments? text).isSome = true) :
    HasWord text := by
  fun_induction outputArguments? text with
  | case1 => cases h
  | case2 c text call hcall =>
    unfold outputCall? at hcall
    split at hcall
    · cases hcall
    · rename_i hconsole
      exact Text.hasWord_of_afterLead (Text.hasWord_cons (by decide) _) hconsole
  | case3 c text _ ih => exact (ih h).of_subset (List.subset_cons_self c text)

theorem hasWord_of_callNameFrom {before : List Char}
    (h : (callNameFrom before text).isSome = true) : HasWord (before ++ text) := by
  fun_induction callNameFrom before text with
  | case1 => cases h
  | case2 before c text word hcall =>
    have hword : word ≠ [] := by
      simp only [Bool.and_eq_true, Bool.not_eq_true', List.isEmpty_eq_false_iff] at hcall
      exact hcall.1.2
    obtain ⟨d, others, hothers⟩ := List.exists_cons_of_ne_nil hword
    have hmem : d ∈ word := hothers ▸ List.mem_cons_self
    exact ⟨d, List.mem_append_left _ ((List.takeWhile_sublist _).subset hmem),
      List.all_eq_true.1 List.all_takeWhile d hmem⟩
  | case3 before c text word _ ih => exact (ih h).of_subset List.perm_middle.symm.subset

/-- Recognized texts have a word in them. -/
theorem hasWord_of_kindOf_ne (h : kindOf text ≠ .other) : HasWord text := by
  by_contra hnone
  apply h
  have hshapes : isDeclaration text = false ∧ (assignmentParts? text).isSome = false ∧
      isConditional text = false ∧ isLoop text = false ∧ (functionName? text).isSome = false ∧
      (returnExpression? text).isSome = false ∧ (outputArguments? text).isSome = false ∧
      (callName? text).isSome = false := by
    simp only [Bool.eq_false_iff]
    exact ⟨mt hasWord_of_isDeclaration hnone, mt hasWord_of_assignmentParts? hnone,
      mt hasWord_of_isConditional hnone, mt hasWord_of_isLoop hnone,
      mt hasWord_of_functionName? hnone, mt hasWord_of_returnExpression? hnone,
      mt hasWord_of_outputArguments? hnone, mt hasWord_of_callNameFrom hnone⟩
  simp [kindOf, hshapes]

/-! ### Executable lines -/

/-- A line with a word in it is executable unless it is a comment. -/
theorem isExecutable_of_hasWord {line : Line} (hcomment : Text.isComment line.text = false)
    (h : HasWord line.text) : line.isExecutable = true := by
  obtain ⟨c, hmem, hc⟩ := h
  have hmarks := Text.not_mem_marks_of_isWordChar hc
  have hopen : c ≠ '{' := fun heq => hmarks (heq ▸ by decide)
  have hclose : c ≠ '}' := fun heq => hmarks (heq ▸ by decide)
  have hsemicolon : c ≠ ';' := by
    rintro rfl
    exact absurd hc (by decide)
  have hempty : line.text.isEmpty = false := by
    rw [List.isEmpty_eq_false_iff]
    exact List.ne_nil_of_mem hmem
  have hbody : c ∈ (if line.text.getLast? == some ';' then line.text.dropLast else line.text) := by
    split
    · rename_i hlast
      obtain ⟨front, hfront⟩ := List.getLast?_eq_some_iff.1 (eq_of_beq hlast)
      rw [hfront, List.mem_append, List.mem_singleton] at hmem
      rw [hfront, List.dropLast_concat]
      exact hmem.resolve_right hsemicolon
    · exact hmem
  rw [isExecutable, hempty, hcomment, Bool.false_or, Bool.false_or, Bool.not_eq_true',
    List.all_eq_false]
  refine ⟨c, hbody, ?_⟩
  simp [hopen, hclose, Text.isBlank_eq_false_of_isWordChar hc]

/-- Recognized lines are executable. -/
theorem isExecutable_of_kind_ne {line : Line} (hkind : line.kind = kindOf line.text)
    (h : line.kind ≠ .other) : line.isExecutable = true := by
  rw [hkind] at h
  refine isExecutable_of_hasWord ?_ (hasWord_of_kindOf_ne h)
  rw [Bool.eq_false_iff]
  intro hcomment
  apply h
  rw [kindOf, hcomment, Bool.or_true]
  rfl

/-! ### Statements of declarations -/

theorem head?_ne_of_isBlank {c : Char} (h : ∀ d ∈ trail, isBlank d = true)
    (hc : isBlank c = false) : trail.head? ≠ some c := by
  intro heq
  rw [h c (List.mem_of_mem_head? heq)] at hc
  cases hc

theorem IsAssignment.exists_trimRight (h : IsAssignment text name right) :
    ∃ right', IsAssignment (trimRight text) name right' := by
  obtain ⟨gap, hgap, rfl⟩ := h.shape
  have htrim : trimRight (name ++ (gap ++ '=' :: right)) =
      name ++ (gap ++ '=' :: trimRight right) := by
    rw [← List.append_assoc, Text.trimRight_append_cons (by decide), List.append_assoc]
  rw [htrim]
  exact ⟨trimRight right, h.shorten hgap (Text.trimRight_isPrefixOf right)⟩

/-- Cutting a statement keeps the declaring word and the name that is declared with a value. -/
theorem exists_cut_declaration (hkeyword : declarationKeyword? text = some (keyword, rest))
    (h : IsAssignment rest.trim name right) :
    ∃ rest' right', declarationKeyword? (cutStatement text) = some (keyword, rest') ∧
      IsAssignment rest'.trim name right' := by
  obtain ⟨rfl, hwhole⟩ := declarationKeyword?_eq_some_iff.1 hkeyword
  obtain ⟨lead, trail, hrest, hlead, htrail⟩ := Text.exists_eq_trim rest
  have hequals : trail.head? ≠ some '=' := head?_ne_of_isBlank htrail (by decide)
  have harrow : trail.head? ≠ some '>' := head?_ne_of_isBlank htrail (by decide)
  have hbody := h.lengthen hequals harrow
  generalize rest.trim ++ trail = body at hrest hbody
  subst hrest
  -- White space follows the declaring word, and then the name: cutting passes over all of it.
  obtain ⟨c, others, rfl, hc⟩ := hbody.exists_cons
  have hword : keyword.text.all isWordChar = true := by cases keyword <;> decide
  have hpasses : ∀ d ∈ keyword.text ++ lead, Text.passes d = true := by
    intro d hd
    rcases List.mem_append.1 hd with hd | hd
    · exact Text.passes_of_isWordChar (List.all_eq_true.1 hword d hd)
    · exact Text.passes_of_isBlank (hlead d hd)
  have hcut : cutStatement (keyword.text ++ (lead ++ c :: others)) =
      keyword.text ++ (lead ++ cutStatement (c :: others)) := by
    rw [← List.append_assoc, Text.cutStatement_append_cons hpasses (Text.passes_of_isWordChar hc)
      (Text.isBlank_eq_false_of_isWordChar hc), List.append_assoc]
  have hlead_whole : continuesWord (lead ++ cutStatement (c :: others)) = false := by
    cases lead with
    | nil => cases hc.symm.trans hwhole
    | cons => exact hwhole
  obtain ⟨_, hstatement⟩ := hbody.exists_cut
  obtain ⟨right', htrimmed⟩ := hstatement.exists_trimRight
  obtain ⟨d, cut, hstart, hd⟩ := hstatement.exists_cons
  refine ⟨_, right', declarationKeyword?_eq_some_iff.2 ⟨hcut, hlead_whole⟩, ?_⟩
  rw [hstart, Text.trim_append_cons hlead (Text.isBlank_eq_false_of_isWordChar hd), ← hstart]
  exact htrimmed

end Line

end Stepwise
