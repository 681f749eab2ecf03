import Stepwise.Proofs.Engine.Effect
import Stepwise.Proofs.Text.Statement

/-!
# The names that lines write

Three kinds of lines name a variable: assignments, declarations and the headers of counting
loops. Here their texts are described as they are written, character by character, and the
functions that recognize them are shown to find exactly these texts. The classifier reads the
whole text of an assignment and its handler only the statement at its start; both find the
same name.

## Main definitions

* `Stepwise.Line.IsAssignment` — a text that assigns to a name.
* `Stepwise.Line.Assigns`, `Stepwise.Line.Declares`, `Stepwise.Line.Counts` — assignments,
  declarations and headers of counting loops, with what they name.
* `Stepwise.Line.Redeclares` — the lines that make a name anew, even a constant.

## Main results

* `Stepwise.Line.assignmentParts?_eq_some_iff` — what is recognized as an assignment.
* `Stepwise.Line.IsAssignment.exists_cut` — cutting a statement keeps the assigned name.
* `Stepwise.Line.counts_iff` — what is recognized as the header of a counting loop.
-/

namespace Stepwise.Line

open Text (afterKeyword continuesWord cutStatement firstParenGroup isBlank isWord isWordChar
  leadingWord splitTopLevel)

variable {text name right rest : Text} {keyword : Keyword}

/-! ### Assignments -/

/-- The text assigns to a name: the name, white space, an equals sign that starts neither a
comparison nor an arrow, and the right-hand side. -/
structure IsAssignment (text name right : Text) : Prop where
  word : isWord name = true
  /-- The name is no declaring word. -/
  free : ∀ keyword : Keyword, name ≠ keyword.text
  /-- The parts of the text, in order. -/
  shape : ∃ gap, (∀ c ∈ gap, isBlank c = true) ∧ text = name ++ (gap ++ '=' :: right)
  /-- The equals sign stands alone. -/
  plain : right.head? ≠ some '=' ∧ right.head? ≠ some '>'

theorem continuesWord_gap {gap : Text} (hgap : ∀ c ∈ gap, isBlank c = true) :
    continuesWord (gap ++ '=' :: right) = false := by
  cases gap with
  | nil =>
    change isWordChar '=' = false
    decide
  | cons c gap => exact Text.isWordChar_of_isBlank (hgap c List.mem_cons_self)

theorem trimLeft_gap {gap : Text} (hgap : ∀ c ∈ gap, isBlank c = true) :
    Text.trimLeft (gap ++ '=' :: right) = '=' :: right := by
  rw [Text.trimLeft, List.dropWhile_append_of_pos hgap]
  exact List.dropWhile_cons_of_neg (by decide)

/-- A text that assigns starts with the name as a whole word. -/
theorem IsAssignment.leadingWord_eq (h : IsAssignment text name right) :
    ∃ rest, leadingWord text = some (name, rest) ∧ Text.trimLeft rest = '=' :: right := by
  obtain ⟨gap, hgap, rfl⟩ := h.shape
  refine ⟨gap ++ '=' :: right, ?_, trimLeft_gap hgap⟩
  rw [Text.leadingWord_eq_some_iff]
  exact ⟨rfl, h.word, continuesWord_gap hgap⟩

theorem contains_keywords_iff :
    (Keyword.all.map Keyword.text).contains name = true ↔
      ∃ keyword : Keyword, name = keyword.text := by
  constructor
  · intro h
    obtain ⟨keyword, _, heq⟩ := List.mem_map.1 (List.contains_iff_mem.1 h)
    exact ⟨keyword, heq.symm⟩
  · rintro ⟨keyword, rfl⟩
    cases keyword <;> decide

/-- What is recognized as an assignment. -/
theorem assignmentParts?_eq_some_iff :
    assignmentParts? text = some (name, right) ↔ IsAssignment text name right := by
  constructor
  · intro h
    unfold assignmentParts? at h
    split at h
    · cases h
    · rename_i word rest hleading
      obtain ⟨rfl, hword, _⟩ := Text.leadingWord_eq_some_iff.1 hleading
      split at h
      · cases h
      · rename_i hfree
        split at h
        · rename_i right' htrim
          split at h
          · cases h
          · rename_i hplain
            cases h
            rw [Bool.or_eq_true, beq_iff_eq, beq_iff_eq, not_or] at hplain
            have hnone : ∀ keyword : Keyword, name ≠ keyword.text := fun keyword heq =>
              hfree (contains_keywords_iff.2 ⟨keyword, heq⟩)
            refine ⟨hword, hnone, ?_, hplain⟩
            have hsplit := List.takeWhile_append_dropWhile (p := isBlank) (l := rest)
            rw [show rest.dropWhile isBlank = '=' :: right from htrim] at hsplit
            refine ⟨rest.takeWhile isBlank, ?_, by rw [hsplit]⟩
            exact List.all_eq_true.1 List.all_takeWhile
        · cases h
  · intro h
    obtain ⟨rest, hleading, htrim⟩ := h.leadingWord_eq
    have hfree : (Keyword.all.map Keyword.text).contains name = false := by
      rw [Bool.eq_false_iff]
      intro hmem
      obtain ⟨keyword, heq⟩ := contains_keywords_iff.1 hmem
      exact h.free keyword heq
    rw [assignmentParts?, hleading]
    dsimp only
    rw [if_neg (Bool.eq_false_iff.1 hfree), htrim]
    simp [h.plain.1, h.plain.2]

theorem IsAssignment.exists_cons (h : IsAssignment text name right) :
    ∃ c others, text = c :: others ∧ isWordChar c = true := by
  obtain ⟨gap, -, rfl⟩ := h.shape
  have hword := h.word
  cases name with
  | nil => cases hword
  | cons c name =>
    rw [isWord, Bool.and_eq_true, List.all_cons, Bool.and_eq_true] at hword
    exact ⟨c, _, rfl, hword.2.1⟩

/-- What follows an assignment belongs to its right-hand side, unless it changes the equals
sign. -/
theorem IsAssignment.lengthen {more : Text} (h : IsAssignment text name right)
    (hequals : more.head? ≠ some '=') (harrow : more.head? ≠ some '>') :
    IsAssignment (text ++ more) name (right ++ more) where
  word := h.word
  free := h.free
  shape := by
    obtain ⟨gap, hgap, rfl⟩ := h.shape
    exact ⟨gap, hgap, by simp⟩
  plain := by
    cases right with
    | nil => exact ⟨hequals, harrow⟩
    | cons => exact h.plain

/-- A right-hand side can be cut short. -/
theorem IsAssignment.shorten {gap right' : Text} (h : IsAssignment text name right)
    (hgap : ∀ c ∈ gap, isBlank c = true) (hshort : right' <+: right) :
    IsAssignment (name ++ (gap ++ '=' :: right')) name right' := by
  have hhead : ∀ c, right.head? ≠ some c → right'.head? ≠ some c := by
    intro c hne hcut
    obtain ⟨removed, hremoved⟩ := hshort
    rw [← hremoved, List.head?_append, hcut] at hne
    exact hne rfl
  exact ⟨h.word, h.free, ⟨gap, hgap, rfl⟩, hhead '=' h.plain.1, hhead '>' h.plain.2⟩

/-- Cutting a statement keeps the assigned name: what is in front of the right-hand side can
neither end a statement nor hide its end. -/
theorem IsAssignment.exists_cut (h : IsAssignment text name right) :
    ∃ right', IsAssignment (cutStatement text) name right' := by
  obtain ⟨gap, hgap, rfl⟩ := h.shape
  have hpasses : ∀ c ∈ (name ++ gap) ++ ['='], Text.passes c = true := by
    intro c hc
    simp only [List.mem_append, List.mem_singleton] at hc
    rcases hc with (hc | hc) | rfl
    · have hword := h.word
      rw [isWord, Bool.and_eq_true] at hword
      exact Text.passes_of_isWordChar (List.all_eq_true.1 hword.2 c hc)
    · exact Text.passes_of_isBlank (hgap c hc)
    · decide
  have hcut : cutStatement (name ++ (gap ++ '=' :: right)) =
      name ++ (gap ++ '=' :: cutStatement right) := by
    rw [← List.append_assoc, Text.cutStatement_append hpasses (by decide), List.append_assoc]
  rw [hcut]
  exact ⟨cutStatement right, h.shorten hgap (Text.cutStatement_isPrefixOf right)⟩

/-- An assignment line that assigns to a name. -/
structure Assigns (line : Line) (name : Text) : Prop where
  kind : line.kind = .assignment
  /-- Its text assigns to the name. -/
  assigns : ∃ right, IsAssignment line.text name right

/-! ### Declarations -/

/-- The declaring word at the start of a text stands there as a whole word. -/
theorem declarationKeyword?_eq_some_iff :
    declarationKeyword? text = some (keyword, rest) ↔
      text = keyword.text ++ rest ∧ continuesWord rest = false := by
  rw [← Text.afterKeyword_eq_some_iff]
  constructor
  · intro h
    obtain ⟨keyword', _, hafter⟩ := List.exists_of_findSome?_eq_some h
    obtain ⟨rest', hrest, heq⟩ := Option.map_eq_some_iff.1 hafter
    cases heq
    exact hrest
  · intro h
    obtain ⟨htext, _⟩ := Text.afterKeyword_eq_some_iff.1 h
    cases keyword with
    | let_ => simp [declarationKeyword?, Keyword.all, h]
    | const_ =>
      have hlet : afterKeyword Keyword.let_.text text = none := by rw [htext]; rfl
      simp [declarationKeyword?, Keyword.all, h, hlet]
    | var_ =>
      have hlet : afterKeyword Keyword.let_.text text = none := by rw [htext]; rfl
      have hconst : afterKeyword Keyword.const_.text text = none := by rw [htext]; rfl
      simp [declarationKeyword?, Keyword.all, h, hlet, hconst]

/-- The text that follows a declaring word declares a name: it assigns to the name, or it is
the name alone. -/
inductive Introduces (text name : Text) : Prop
  | valued {right : Text} (assigns : IsAssignment text name right)
  | bare (word : isWord name = true) (alone : text = name)

/-- A declaration line that declares a name: its statement is a declaring word and a text that
introduces the name. -/
structure Declares (line : Line) (name : Text) : Prop where
  kind : line.kind = .declaration
  /-- Its statement declares the name. -/
  declares : ∃ (keyword : Keyword) (rest : Text), cutStatement line.text = keyword.text ++ rest ∧
    continuesWord rest = false ∧ Introduces rest.trim name

/-- What follows a declaring word is only read as a declaration of the name that it
introduces. -/
theorem introduces_of_declared? {env : Environment} {value : Value}
    (h : declared? env text = some (name, value)) : Introduces text name := by
  unfold declared? at h
  split at h
  · rename_i hparts
    cases h
    exact .valued (assignmentParts?_eq_some_iff.1 hparts)
  · split at h
    · rename_i hword
      cases h
      exact .bare hword rfl
    · cases h

/-! ### Headers of counting loops -/

/-- The first part of a header assigns a start to the variable, with or without a declaring
word. -/
inductive Initializes (text : Text) : Option Keyword → Text → Text → Prop
  | plain {name start : Text} (assigns : IsAssignment text name start) :
      Initializes text none name start
  | declared {keyword : Keyword} {rest name start : Text}
      (statement : text = keyword.text ++ rest) (whole : continuesWord rest = false)
      (assigns : IsAssignment (Text.trimLeft rest) name start) :
      Initializes text (some keyword) name start

/-- A text that assigns to a name does not start with a declaring word. -/
theorem IsAssignment.declarationKeyword?_eq_none (h : IsAssignment text name right) :
    declarationKeyword? text = none := by
  rw [Option.eq_none_iff_forall_ne_some]
  rintro ⟨keyword, rest⟩ hkeyword
  obtain ⟨htext, hwhole⟩ := declarationKeyword?_eq_some_iff.1 hkeyword
  obtain ⟨rest', hleading, _⟩ := h.leadingWord_eq
  have hword : isWord keyword.text = true := by cases keyword <;> decide
  have hkeyword := Text.leadingWord_eq_some_iff.2 ⟨htext, hword, hwhole⟩
  rw [hleading] at hkeyword
  cases hkeyword
  exact h.free keyword rfl

/-- What is recognized as the three parts of a header. -/
theorem forHeader?_eq_some_iff {inner : Text} {header : ForHeader} :
    forHeader? inner = some header ↔
      ∃ first update, splitTopLevel ';' inner = [first, header.condition, update] ∧
        Initializes first.trim header.keyword header.variableName header.start := by
  unfold forHeader?
  constructor
  · intro h
    split at h
    · rename_i first condition update hparts
      dsimp only at h
      obtain ⟨⟨name, start⟩, hassign, rfl⟩ := Option.map_eq_some_iff.1 h
      refine ⟨first, update, hparts, ?_⟩
      have hassign := assignmentParts?_eq_some_iff.1 hassign
      cases hkeyword : declarationKeyword? first.trim with
      | none =>
        rw [hkeyword] at hassign
        exact .plain hassign
      | some pair =>
        obtain ⟨keyword, rest⟩ := pair
        rw [hkeyword] at hassign
        obtain ⟨htext, hwhole⟩ := declarationKeyword?_eq_some_iff.1 hkeyword
        exact .declared htext hwhole hassign
    · cases h
  · rintro ⟨first, update, hparts, hinit⟩
    obtain ⟨keyword, name, start, condition⟩ := header
    rw [hparts]
    dsimp only at hinit ⊢
    cases hinit with
    | plain assigns =>
      rw [assigns.declarationKeyword?_eq_none]
      dsimp only
      rw [assignmentParts?_eq_some_iff.2 assigns]
      rfl
    | declared statement whole assigns =>
      rw [declarationKeyword?_eq_some_iff.2 ⟨statement, whole⟩]
      dsimp only
      rw [assignmentParts?_eq_some_iff.2 assigns]
      rfl

/-- A loop line that is the header of a counting loop: the word `for`, and a group of three
parts, the first of which assigns a start to the variable. -/
structure Counts (line : Line) (header : ForHeader) : Prop where
  kind : line.kind = .loop
  /-- Its text has the parts of the header. -/
  parts : ∃ rest inner first update, line.text = "for".toList ++ rest ∧
    continuesWord rest = false ∧ firstParenGroup rest = some inner ∧
    splitTopLevel ';' inner = [first, header.condition, update] ∧
    Initializes first.trim header.keyword header.variableName header.start

/-- What is recognized as the header of a counting loop. -/
theorem counts_iff {line : Line} {header : ForHeader} (hkind : line.kind = .loop) :
    line.Counts header ↔
      ((afterKeyword "for".toList line.text).bind firstParenGroup).bind forHeader? =
        some header := by
  simp only [Option.bind_eq_some_iff, Text.afterKeyword_eq_some_iff, forHeader?_eq_some_iff]
  constructor
  · rintro ⟨_, rest, inner, first, update, htext, hwhole, hinner, hparts, hinit⟩
    exact ⟨inner, ⟨rest, ⟨htext, hwhole⟩, hinner⟩, first, update, hparts, hinit⟩
  · rintro ⟨inner, ⟨rest, ⟨htext, hwhole⟩, hinner⟩, first, update, hparts, hinit⟩
    exact ⟨hkind, rest, inner, first, update, htext, hwhole, hinner, hparts, hinit⟩

/-- The effect of the header of a counting loop. -/
theorem Counts.loopEffect_eq {line : Line} {header : ForHeader} (h : line.Counts header)
    (env : Environment) : loopEffect env line = forEffect env line header := by
  have hheader := (counts_iff h.kind).1 h
  have hwhile : afterKeyword "while".toList line.text = none := by
    obtain ⟨rest, _, _, _, htext, _⟩ := h.parts
    rw [htext]
    rfl
  rw [loopEffect, hwhile, Option.bind_none, hheader]

/-! ### Lines that make a name anew -/

/-- The line makes a name anew, whatever it was before: it declares the name, or it is the
header of a counting loop that declares its variable and names it so. -/
inductive Redeclares (line : Line) (name : Text) : Prop
  | declaration (declares : line.Declares name)
  | header {header : ForHeader} (counts : line.Counts header)
      (keyword : header.keyword.isSome = true) (names : header.variableName = name)

end Stepwise.Line
