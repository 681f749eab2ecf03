import Stepwise.Proofs.Engine.Step
import Stepwise.Proofs.Line.Kinds

/-!
# What follows a statement

A semicolon or a line comment ends a statement, and whatever stands behind it on the line has
no influence. The kind of a line is found on the whole text and the parts of its statement on
the text up to the end; both are the same as those of the statement alone.

## Main definitions

* `Stepwise.Line.Trailer` — a semicolon or a line comment, with any text behind it.
* `Stepwise.Line.Statement` — a whole declaration, assignment or return.

## Main results

* `Stepwise.Line.Statement.cutStatement_append` — a statement is cut out before a trailer.
* `Stepwise.Line.Statement.kindOf_append` — a trailer leaves the kind of a statement.
* `Stepwise.Line.trailing_inert` — a trailer changes nothing.
-/

namespace Stepwise.Line

open Text (ScanState Spot Tight continuesWord cutStatement endsStatement isBlank isWordChar
  topLevel)

variable {text name right rest trailer : Text}

/-! ### Trailers -/

/-- What ends a statement on its line, with any text behind it: a semicolon, or a space and two
slashes. -/
inductive Trailer : Text → Prop
  | semicolon (rest : Text) : Trailer (';' :: rest)
  | comment (rest : Text) : Trailer (' ' :: '/' :: '/' :: rest)

namespace Trailer

/-- Trimming a line leaves the end of its statement. -/
theorem exists_trimRight (h : Trailer trailer) :
    ∃ trimmed, Trailer trimmed ∧ ∀ s, Text.trimRight (s ++ trailer) = s ++ trimmed := by
  cases h with
  | semicolon rest =>
    refine ⟨_, .semicolon (Text.trimRight rest), fun s => ?_⟩
    exact Text.trimRight_append_cons (by decide) s rest
  | comment rest =>
    refine ⟨_, .comment (Text.trimRight rest), fun s => ?_⟩
    have hparts : s ++ ' ' :: '/' :: '/' :: rest = (s ++ [' ', '/']) ++ '/' :: rest := by simp
    rw [hparts, Text.trimRight_append_cons (by decide)]
    simp

theorem head?_eq (h : Trailer trailer) :
    trailer.head? = some ';' ∨ trailer.head? = some ' ' := by
  cases h with
  | semicolon => exact .inl rfl
  | comment => exact .inr rfl

theorem trimLeft_ne (h : Trailer trailer) (right : Text) :
    Text.trimLeft trailer ≠ '=' :: right := by
  intro heq
  cases h <;> cases heq

theorem head?_ne (h : Trailer trailer) {c : Char} (hsemicolon : c ≠ ';') (hspace : c ≠ ' ') :
    trailer.head? ≠ some c := by
  intro heq
  rcases h.head?_eq with hhead | hhead <;> rw [hhead] at heq <;> cases heq
  · exact hsemicolon rfl
  · exact hspace rfl

/-- A character that is neither of those with which trailers start follows a text and a trailer
only if it follows the text. -/
theorem head?_append_ne (h : Trailer trailer) {c : Char} (hsemicolon : c ≠ ';') (hspace : c ≠ ' ')
    (htext : text.head? ≠ some c) : (text ++ trailer).head? ≠ some c := by
  cases text with
  | cons => exact htext
  | nil => exact h.head?_ne hsemicolon hspace

theorem find?_endsStatement (h : Trailer trailer) :
    ∃ spot, (topLevel trailer).find? endsStatement = some spot ∧
      (spot.left = [] ∨ spot.left = [' ']) := by
  cases h with
  | semicolon rest => exact ⟨⟨[], ';', rest⟩, rfl, .inl rfl⟩
  | comment rest => exact ⟨⟨[' '], '/', '/' :: rest⟩, rfl, .inr rfl⟩

end Trailer

/-! ### Statements -/

/-- A text that is a whole declaration, assignment or return and nothing more: it is trimmed,
closes all its literals and groups, and does not end before its end. -/
structure Statement (text : Text) : Prop where
  /-- There is no white space at the ends. -/
  trimmed : text.trim = text
  /-- The kind is one of three. -/
  kind : kindOf text = .declaration ∨ kindOf text = .assignment ∨ kindOf text = .return_
  /-- All literals and groups are closed. -/
  closed : ScanState.start.run .all text = .code 0
  /-- No semicolon and no line comment is at the top level. -/
  unended : ∀ spot ∈ topLevel text, endsStatement spot = false

namespace Statement

theorem tight (h : Statement text) : Tight text := by
  refine Text.tight_of_trim_eq h.trimmed ?_
  rintro rfl
  have hkind := h.kind
  simp [kindOf] at hkind

theorem cutStatement_eq (h : Statement text) : cutStatement text = text := by
  have hnone : (topLevel text).find? endsStatement = none := by
    rw [List.find?_eq_none]
    intro spot hspot
    simp [h.unended spot hspot]
  rw [cutStatement, hnone]
  exact h.tight.trimRight_eq

/-- A statement is cut out before a trailer. -/
theorem cutStatement_append (h : Statement text) (htrailer : Trailer trailer) :
    cutStatement (text ++ trailer) = text := by
  -- The last character of the statement and the first of the trailer start no comment.
  have hfront : ((topLevel text).map (Spot.extend trailer)).find? endsStatement = none := by
    rw [List.find?_eq_none]
    intro spot hspot
    obtain ⟨spot, hmem, rfl⟩ := List.mem_map.1 hspot
    have hends := h.unended spot hmem
    rw [endsStatement, Bool.or_eq_false_iff, Bool.and_eq_false_imp] at hends
    rw [endsStatement, Spot.extend_char, hends.1, Bool.false_or, Bool.and_eq_true]
    rintro ⟨hslash, hafter⟩
    have hne : spot.after.head? ≠ some '/' := by simpa using hends.2 hslash
    exact htrailer.head?_append_ne (by decide) (by decide) hne (beq_iff_eq.1 hafter)
  obtain ⟨spot, hfind, hleft⟩ := htrailer.find?_endsStatement
  have hback : ((topLevel trailer).map (Spot.shift text.reverse)).find? endsStatement =
      some (spot.shift text.reverse) := by
    have hshift : endsStatement ∘ Spot.shift text.reverse = endsStatement := rfl
    rw [List.find?_map, hshift, hfind]
    rfl
  rw [cutStatement, Text.topLevel_append h.closed, List.find?_append, hfront, hback,
    Option.none_or]
  dsimp only
  rw [Spot.left_shift]
  rcases hleft with hleft | hleft <;> rw [hleft]
  · rw [List.append_nil, h.tight.trimRight_eq]
  · have htrim : Text.trimRight (text ++ [' ']) = Text.trimRight text := by
      simp [Text.trimRight, isBlank]
    rw [htrim, h.tight.trimRight_eq]

end Statement

/-! ### Kinds -/

/-- An assignment stays one. -/
theorem IsAssignment.append (h : IsAssignment text name right) (htrailer : Trailer trailer) :
    IsAssignment (text ++ trailer) name (right ++ trailer) :=
  h.lengthen (htrailer.head?_ne (by decide) (by decide)) (htrailer.head?_ne (by decide) (by decide))

/-- A declaration stays one, whatever follows. -/
theorem isDeclaration_append (h : isDeclaration text = true) (more : Text) :
    isDeclaration (text ++ more) = true := by
  obtain ⟨keyword, rest, rfl, hblank, hword⟩ := isDeclaration_iff.1 h
  refine isDeclaration_iff.2 ⟨keyword, rest ++ more, List.append_assoc _ _ _, ?_, ?_⟩
  · cases rest with
    | nil => cases hblank
    | cons => exact hblank
  · have hne : Text.trimLeft rest ≠ [] := by
      intro hnil
      rw [hnil] at hword
      cases hword
    obtain ⟨c, others, hrest⟩ := List.exists_cons_of_ne_nil hne
    rw [Text.trimLeft_append hne, hrest]
    rwa [hrest] at hword

/-- What follows `return` goes on with the trailer. -/
theorem returnExpression?_append (h : returnExpression? text = some rest)
    (htrailer : Trailer trailer) :
    returnExpression? (text ++ trailer) = some (rest ++ trailer) := by
  obtain ⟨rfl, hend⟩ := returnExpression?_eq_some_iff.1 h
  refine returnExpression?_eq_some_iff.2 ⟨List.append_assoc _ _ _, .inr ?_⟩
  cases rest with
  | cons =>
    rcases hend with hnil | hend
    · cases hnil
    · exact hend
  | nil =>
    cases htrailer with
    | semicolon => exact .inr rfl
    | comment => exact .inl rfl

/-- A return becomes no assignment: the first character to see behind `return` is the same, or
it belongs to the trailer. -/
theorem assignmentParts?_append_eq_none (h : returnExpression? text = some rest)
    (hnone : assignmentParts? text = none) (htrailer : Trailer trailer) :
    assignmentParts? (text ++ trailer) = none := by
  rw [Option.eq_none_iff_forall_ne_some]
  rintro ⟨name, right⟩ hparts
  have hassignment := assignmentParts?_eq_some_iff.1 hparts
  obtain ⟨rfl, -⟩ := returnExpression?_eq_some_iff.1 h
  obtain ⟨htext, -⟩ := returnExpression?_eq_some_iff.1 (returnExpression?_append h htrailer)
  obtain ⟨rest', hleading, hright⟩ := hassignment.leadingWord_eq
  have hwhole : continuesWord (rest ++ trailer) = false :=
    (Text.afterKeyword_eq_some_iff.1
      (Option.filter_eq_some_iff.1 (returnExpression?_append h htrailer)).1).2
  have hword := Text.leadingWord_eq_some_iff.2 ⟨htext, by decide, hwhole⟩
  rw [hleading] at hword
  cases hword
  by_cases hblank : Text.trimLeft rest = []
  · rw [Text.trimLeft_append_of_eq_nil hblank] at hright
    exact htrailer.trimLeft_ne right hright
  · rw [Text.trimLeft_append hblank] at hright
    obtain ⟨c, others, hothers⟩ := List.exists_cons_of_ne_nil hblank
    rw [hothers, List.cons_append] at hright
    cases hright
    have hplain : ∀ c, (others ++ trailer).head? ≠ some c → others.head? ≠ some c := by
      intro c hne heq
      rw [List.head?_append, heq] at hne
      exact hne rfl
    have hsplit := List.takeWhile_append_dropWhile (p := isBlank) (l := rest)
    rw [show rest.dropWhile isBlank = '=' :: others from hothers] at hsplit
    have hreturn : IsAssignment ("return".toList ++ rest) "return".toList others :=
      ⟨hassignment.word, hassignment.free,
        ⟨rest.takeWhile isBlank, List.all_eq_true.1 List.all_takeWhile, by rw [hsplit]⟩,
        hplain '=' hassignment.plain.1, hplain '>' hassignment.plain.2⟩
    rw [assignmentParts?_eq_some_iff.2 hreturn] at hnone
    cases hnone

/-- A trailer leaves the kind of a statement. -/
theorem Statement.kindOf_append (h : Statement text) (htrailer : Trailer trailer) :
    kindOf (text ++ trailer) = kindOf text := by
  rcases h.kind with hkind | hkind | hkind <;> rw [hkind]
  · rw [kindOf_eq_declaration_iff] at hkind ⊢
    exact isDeclaration_append hkind trailer
  · rw [kindOf_eq_assignment_iff] at hkind ⊢
    obtain ⟨name, right, hassignment⟩ := hkind
    exact ⟨name, right ++ trailer, hassignment.append htrailer⟩
  · rw [kindOf_eq_return_iff] at hkind ⊢
    obtain ⟨⟨rest, hreturn⟩, hnone⟩ := hkind
    exact ⟨⟨rest ++ trailer, returnExpression?_append hreturn htrailer⟩,
      assignmentParts?_append_eq_none hreturn hnone htrailer⟩

/-! ### Lines -/

namespace Statement

/-- What is read of a line with a trailer: the line of the statement alone, with some trailer
behind its text. -/
theorem read_append (h : Statement text) (htrailer : Trailer trailer) (number : Nat) :
    read number text = ⟨number, kindOf text, text, 0⟩ ∧ ∃ trimmed, Trailer trimmed ∧
      read number (text ++ trailer) = ⟨number, kindOf text, text ++ trimmed, 0⟩ := by
  obtain ⟨trimmed, htrimmed, htrim⟩ := htrailer.exists_trimRight
  obtain ⟨c, rest, rfl, hc⟩ := h.tight.head
  have hleft : Text.trim (c :: rest ++ trailer) = c :: rest ++ trimmed := by
    rw [← htrim, Text.trim]
    simp [Text.trimLeft, hc]
  refine ⟨?_, trimmed, htrimmed, ?_⟩
  · simp [read, h.trimmed, hc]
  · rw [read, hleft, h.kindOf_append htrimmed]
    simp [hc]

/-- Of what follows `return`, the statement is cut out as well. -/
theorem cutStatement_rest (h : Statement ("return".toList ++ rest)) (htrailer : Trailer trailer) :
    cutStatement rest = rest ∧ cutStatement (rest ++ trailer) = rest := by
  have hpasses : ("retur".toList ++ ['n']).all Text.passes = true := by decide
  have hfront : ∀ t, cutStatement ("return".toList ++ t) = "return".toList ++ cutStatement t :=
    Text.cutStatement_append (List.all_eq_true.1 hpasses) (by decide)
  have hplain := h.cutStatement_eq
  have hwhole := h.cutStatement_append htrailer
  rw [hfront] at hplain
  rw [List.append_assoc, hfront] at hwhole
  exact ⟨List.append_cancel_left hplain, List.append_cancel_left hwhole⟩

/-- A trailer leaves the effect of a statement. -/
theorem effect_append (h : Statement text) (htrailer : Trailer trailer) (env : Environment)
    (number : Nat) :
    effect env ⟨number, kindOf text, text ++ trailer, 0⟩ =
      effect env ⟨number, kindOf text, text, 0⟩ := by
  have hcut := h.cutStatement_append htrailer
  have hplain := h.cutStatement_eq
  rcases h.kind with hkind | hkind | hkind <;> simp only [effect, hkind]
  · simp only [declarationEffect, hcut, hplain, otherEffect]
  · simp only [assignmentEffect, hcut, hplain, otherEffect]
  · obtain ⟨⟨rest, hreturn⟩, _⟩ := kindOf_eq_return_iff.1 hkind
    obtain ⟨rfl, -⟩ := returnExpression?_eq_some_iff.1 hreturn
    obtain ⟨hrest, hrest'⟩ := h.cutStatement_rest htrailer
    simp only [returnEffect, hreturn, returnExpression?_append hreturn htrailer, hrest, hrest',
      otherEffect]

end Statement

/-- What follows a statement on its line has no influence, be it quotes, brackets, keywords or
calls. The line has the kind that the statement alone has, the same text is cut out of it, so
that the same name and the same expression are evaluated, and executing it gives the same
state or the same failure, whatever the state and the settings are. -/
theorem trailing_inert (h : Statement text) (htrailer : Trailer trailer) (number : Nat) :
    (read number (text ++ trailer)).kind = (read number text).kind ∧
      cutStatement (read number (text ++ trailer)).text = cutStatement (read number text).text ∧
      ((read number text).kind = .return_ →
        (returnExpression? (read number (text ++ trailer)).text).map cutStatement =
          (returnExpression? (read number text).text).map cutStatement) ∧
      ∀ (settings : EngineSettings) (state : State),
        state.perform settings (read number (text ++ trailer)) =
          state.perform settings (read number text) := by
  obtain ⟨hplain, trimmed, htrimmed, hwhole⟩ := h.read_append htrailer number
  rw [hplain, hwhole]
  refine ⟨rfl, (h.cutStatement_append htrimmed).trans h.cutStatement_eq.symm, ?_, ?_⟩
  · intro hkind
    obtain ⟨⟨rest, hreturn⟩, _⟩ := kindOf_eq_return_iff.1 hkind
    obtain ⟨rfl, -⟩ := returnExpression?_eq_some_iff.1 hreturn
    obtain ⟨hrest, hrest'⟩ := h.cutStatement_rest htrimmed
    rw [hreturn, returnExpression?_append hreturn htrimmed, Option.map_some, Option.map_some, hrest,
      hrest']
  · intro settings state
    exact State.perform_congr rfl fun env => h.effect_append htrimmed env number

/-- The statement has a semicolon and slashes in a literal and a division at its end; behind it
stand an open literal and an open group. -/
theorem trailing_inert_division :
    Statement "s = ';//' + t /".toList ∧ Trailer " // let s = (\"".toList ∧
      (read 3 "s = ';//' + t / // let s = (\"".toList).kind = .assignment ∧
      ∀ (settings : EngineSettings) (state : State),
        state.perform settings (read 3 "s = ';//' + t / // let s = (\"".toList) =
          state.perform settings (read 3 "s = ';//' + t /".toList) := by
  have hstatement : Statement "s = ';//' + t /".toList :=
    ⟨by decide, .inr (.inl (by decide)), by decide, by decide⟩
  have htrailer : Trailer " // let s = (\"".toList := .comment " let s = (\"".toList
  obtain ⟨hkind, _, _, hperform⟩ := trailing_inert hstatement htrailer 3
  exact ⟨hstatement, htrailer, hkind.trans (by decide), hperform⟩

end Stepwise.Line
