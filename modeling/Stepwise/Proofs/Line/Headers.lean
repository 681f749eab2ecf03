import Stepwise.Proofs.Engine.Step
import Stepwise.Proofs.Expression.Nested
import Stepwise.Proofs.Expression.Semantics
import Stepwise.Proofs.Line.Naming

/-!
# Loop headers

A loop header is written from parts: a variable, a comparison, and fragments for the start, the
bound and the update. Reading a header back takes five readers, each of which could lose a
boundary: the keyword is taken off, the parenthesis is matched, the contents are split at
semicolons, the first part is split at its equals sign and the condition at its comparison. For
closed fragments no boundary moves, whatever calls, arrays and literals are in them, and the
header does what its parts say.

## Main definitions

* `Stepwise.Line.forText`, `Stepwise.Line.whileText` — loop headers as they are written.

## Main results

* `Stepwise.Line.counts_forText` — the parts of the header of a counting loop.
* `Stepwise.Line.conditionHeader?_conditionText`, `evaluate_conditionText` — the loop that a
  condition describes, and the value of the condition.
* `Stepwise.Line.headers_as_written` — what both kinds of headers do.
-/

namespace Stepwise.Line

open Expression (Closed Nested Shape Uncompared delimiters evaluate isWord_iff spaced
  splitComparison)
open Text (Tight firstParenGroup isWord)

variable {name start bound update inner : Text} {env : Environment}

/-! ### Written headers -/

/-- A comparison of a variable with a bound. -/
def conditionText (name : Text) (op : Comparison) (bound : Text) : Text :=
  name ++ (spaced op.symbol ++ bound)

/-- An assignment of a start to a variable, behind a declaring word if there is one. -/
def initText (keyword : Option Keyword) (name start : Text) : Text :=
  keyword.elim [] (fun keyword => keyword.text ++ [' ']) ++ (name ++ (" = ".toList ++ start))

/-- A word with a text in parentheses behind it, and the brace that opens the body. -/
def headerText (word inner : Text) : Text :=
  word ++ (" (".toList ++ (inner ++ ") \x7b".toList))

/-- The header of a counting loop. -/
def forText (keyword : Option Keyword) (name start : Text) (op : Comparison)
    (bound update : Text) : Text :=
  headerText "for".toList
    (Text.join [';', ' '] [initText keyword name start, conditionText name op bound, update])

/-- The header of a loop with a condition only. -/
def whileText (name : Text) (op : Comparison) (bound : Text) : Text :=
  headerText "while".toList (conditionText name op bound)

example : forText (some .let_) "i".toList "0".toList .lt "xs.length".toList "i++".toList =
    "for (let i = 0; i < xs.length; i++) \x7b".toList := rfl

example : whileText "left".toList .le "right".toList = "while (left <= right) \x7b".toList := rfl

/-! ### Closed parts -/

theorem isWord_of_isVariableName (h : isVariableName name = true) : isWord name = true := by
  rw [isVariableName, Bool.and_eq_true] at h
  exact h.1

/-- A word is closed. -/
theorem closed_of_isWord (h : isWord name = true) : Closed ';' name := by
  refine .of_forall fun c hc => ?_
  have hword := (isWord_iff.1 h).2 c hc
  constructor
  · intro hdelimiter
    have hmarks : delimiters.all Text.marks.contains = true := by decide
    have hmark := List.all_eq_true.1 hmarks c hdelimiter
    exact Text.not_mem_marks_of_isWordChar hword (List.contains_iff_mem.1 hmark)
  · rintro rfl
    exact absurd hword (by decide)

theorem closed_conditionText (hname : isWord name = true) (op : Comparison)
    (hbound : Closed ';' bound) : Closed ';' (conditionText name op bound) := by
  have hspaced : Closed ';' (spaced op.symbol) := .of_all (by cases op <;> decide)
  exact (closed_of_isWord hname).append (hspaced.append hbound)

theorem closed_initText (keyword : Option Keyword) (hname : isWord name = true)
    (hstart : Closed ';' start) : Closed ';' (initText keyword name start) := by
  have hequals : Closed ';' " = ".toList := .of_all (by decide)
  have hassignment := (closed_of_isWord hname).append (hequals.append hstart)
  cases keyword with
  | none => exact hassignment
  | some keyword =>
    have hkeyword : Closed ';' (keyword.text ++ [' ']) := .of_all (by cases keyword <;> decide)
    exact hkeyword.append hassignment

/-! ### The line -/

/-- A header is read as the line of a loop, with the contents of its parentheses. -/
theorem read_headerText {word : Text} (hword : word = "for".toList ∨ word = "while".toList)
    (hinner : Nested inner) (number : Nat) :
    read number (headerText word inner) = ⟨number, .loop, headerText word inner, 0⟩ ∧
      ∃ rest, headerText word inner = word ++ rest ∧ Text.continuesWord rest = false ∧
        firstParenGroup rest = some inner := by
  refine ⟨?_, _, rfl, rfl, hinner.parenGroup_eq " \x7b".toList⟩
  have hlast : Tight ") \x7b".toList := by decide
  have hfirst : Tight word := by
    rcases hword with rfl | rfl <;> decide
  have htight := hfirst.append hlast (" (".toList ++ inner)
  rw [List.append_assoc] at htight
  rw [read, headerText, htight.trim_eq]
  rcases hword with rfl | rfl <;> rfl

/-! ### Conditions -/

theorem splitComparison_conditionText (hname : isWord name = true) (op : Comparison)
    (bound : Text) {gap : Text} (hgap : Uncompared gap) :
    splitComparison (gap ++ conditionText name op bound) =
      some (gap ++ (name ++ [' ']), op, ' ' :: bound) := by
  have hsplit := (hgap.append (Shape.of_isWord hname).uncompared).splitComparison_append op bound
  rwa [List.append_assoc, List.append_assoc] at hsplit

/-- The loop that a condition describes. -/
theorem conditionHeader?_conditionText (hname : isVariableName name = true) (op : Comparison)
    (bound : Text) :
    conditionHeader? env (conditionText name op bound) =
      (evaluate env bound).number?.map fun b => ⟨name, (env.numberOf? name).getD 0.0, b⟩ := by
  have hword := isWord_of_isVariableName hname
  have htrim : Text.trim (name ++ [' ']) = name := (Shape.of_isWord hword).tight.trim_concat rfl
  have hsplit : splitComparison (conditionText name op bound) =
      some (name ++ [' '], op, ' ' :: bound) := splitComparison_conditionText hword op bound .nil
  rw [conditionHeader?, hsplit]
  dsimp only
  rw [htrim, if_pos hname, Expression.evaluate_cons_blank rfl]

/-- A condition has the value of its comparison. -/
theorem evaluate_conditionText (hname : isWord name = true) (op : Comparison) (bound : Text) :
    evaluate env (conditionText name op bound) =
      .bool (op.holds (evaluate env name) (evaluate env bound)) := by
  have hshape := Shape.of_isWord hname
  have hsymbol : Tight op.symbol := by cases op <;> decide
  -- Trimming the condition trims the bound only, of which nothing may be left.
  have htrim : (conditionText name op bound).trim =
      name ++ ' ' :: (op.symbol ++ Text.trimRight (' ' :: bound)) := by
    have hparts : conditionText name op bound =
        (name ++ ([' '] ++ op.symbol)) ++ ' ' :: bound := by simp [conditionText, spaced]
    rw [hparts, (hshape.tight.append hsymbol [' ']).trim_append]
    simp
  have hatom : Expression.atom? env (conditionText name op bound).trim = none := by
    rw [htrim, hshape.atom?_append_space]
  have hsplit : splitComparison (conditionText name op bound).trim =
      some (name ++ [' '], op, Text.trimRight (' ' :: bound)) := by
    rw [htrim, hshape.uncompared.splitComparison_gap op (Text.head?_trimRight_cons ' ' bound)]
  rw [Expression.evaluate_of_splitComparison hatom hsplit,
    Expression.evaluate_concat_space hshape.tight, Expression.evaluate_trimRight,
    Expression.evaluate_cons_blank rfl]

/-! ### Counting loops -/

/-- A start that is trimmed to the right is assigned: with a space in front of it, the equals sign
stands alone. -/
theorem isAssignment_trimRight (hname : isWord name = true)
    (hfree : ∀ keyword : Keyword, name ≠ keyword.text) (start : Text) :
    IsAssignment (name ++ ([' '] ++ ['=']) ++ Text.trimRight (' ' :: start)) name
      (Text.trimRight (' ' :: start)) := by
  have hplain : ∀ c, c ≠ ' ' → (Text.trimRight (' ' :: start)).head? ≠ some c := by
    intro c hc heq
    rcases Text.head?_trimRight_cons ' ' start with hnil | hhead
    · rw [hnil] at heq
      cases heq
    · rw [hhead] at heq
      exact hc (Option.some.inj heq).symm
  exact ⟨hname, hfree, ⟨[' '], List.forall_mem_singleton.2 rfl, by simp⟩,
    hplain '=' (by decide), hplain '>' (by decide)⟩

/-- The first part of the header of a counting loop assigns the start. -/
theorem initializes_initText (keyword : Option Keyword) (hname : isWord name = true)
    (hfree : ∀ keyword : Keyword, name ≠ keyword.text) (start : Text) :
    Initializes (initText keyword name start).trim keyword name
      (Text.trimRight (' ' :: start)) := by
  have hassigns := isAssignment_trimRight hname hfree start
  have hleft : Tight (name ++ ([' '] ++ ['='])) :=
    (Shape.of_isWord hname).tight.append (by decide) [' ']
  cases keyword with
  | none =>
    have hparts : initText none name start = name ++ ([' '] ++ ['=']) ++ ' ' :: start := by
      simp [initText]
    rw [hparts, hleft.trim_append]
    exact .plain hassigns
  | some keyword =>
    have hkeyword : Tight keyword.text := by cases keyword <;> decide
    have hparts : initText (some keyword) name start =
        keyword.text ++ ([' '] ++ (name ++ ([' '] ++ ['=']))) ++ ' ' :: start := by
      simp [initText]
    have hrest : Text.trimLeft
          (' ' :: (name ++ ([' '] ++ ['=']) ++ Text.trimRight (' ' :: start))) =
        name ++ ([' '] ++ ['=']) ++ Text.trimRight (' ' :: start) := hleft.trimLeft_append _
    rw [hparts, (hkeyword.append hleft [' ']).trim_append, List.append_assoc, List.append_assoc]
    exact .declared rfl rfl (by rwa [List.singleton_append, hrest])

/-- The header of a counting loop has the parts from which it is written, but for white space
around the start and in front of the condition. -/
theorem counts_forText (keyword : Option Keyword) (hname : isWord name = true)
    (hfree : ∀ keyword : Keyword, name ≠ keyword.text) (hstart : Closed ';' start)
    (op : Comparison) (hbound : Closed ';' bound) (hupdate : Closed ';' update) (number : Nat) :
    (read number (forText keyword name start op bound update)).Counts
      ⟨keyword, name, Text.trimRight (' ' :: start), ' ' :: conditionText name op bound⟩ := by
  have hseparator : ';' ∉ delimiters := by decide
  have hgap : Closed ';' [' '] := .of_all (by decide)
  have hinit := closed_initText keyword hname hstart
  have hothers : ∀ text ∈ [conditionText name op bound, update], Closed ';' text := by
    intro text htext
    rcases List.mem_pair.1 htext with rfl | rfl
    · exact closed_conditionText hname op hbound
    · exact hupdate
  have hnested := Expression.nested_join hseparator hgap
    (List.forall_mem_cons.2 ⟨hinit, hothers⟩)
  have hsplit := Expression.splitTopLevel_join hseparator hgap hinit hothers
  obtain ⟨hread, rest, hrest, hwhole, hgroup⟩ := read_headerText (.inl rfl) hnested number
  rw [forText, hread]
  exact ⟨rfl, rest, _, _, _, hrest, hwhole, hgroup, hsplit,
    initializes_initText keyword hname hfree start⟩

/-- A counting loop starts if its start and its bound are numbers. -/
theorem forEffect_header (keyword : Option Keyword) (hname : isWord name = true)
    (start : Text) (op : Comparison) (bound : Text) (line : Line) :
    forEffect env line
        ⟨keyword, name, Text.trimRight (' ' :: start), ' ' :: conditionText name op bound⟩ =
      match evaluate env start, evaluate env bound with
      | .number a, .number b =>
        if keyword = none ∧ env.isConstant name = true then
          .error (.constReassignment name line.number)
        else .ok (.startLoop (some ⟨name, a, b⟩))
      | _, _ => .ok (.startLoop none) := by
  have hsplit : splitComparison (' ' :: conditionText name op bound) =
      some (' ' :: (name ++ [' ']), op, ' ' :: bound) :=
    splitComparison_conditionText hname op bound (.cons rfl (by decide) .nil)
  have hstart : evaluate env (Text.trimRight (' ' :: start)) = evaluate env start := by
    rw [Expression.evaluate_trimRight, Expression.evaluate_cons_blank rfl]
  have hbound : evaluate env (' ' :: bound) = evaluate env bound :=
    Expression.evaluate_cons_blank rfl bound
  simp only [forEffect, hsplit, hstart, hbound, Option.bind_some]
  cases evaluate env start <;> cases evaluate env bound <;>
    simp [Value.number?, Option.isNone_iff_eq_none]

/-! ### Effects -/

theorem effect_forText (keyword : Option Keyword) (hname : isWord name = true)
    (hfree : ∀ keyword : Keyword, name ≠ keyword.text) (hstart : Closed ';' start)
    (op : Comparison) (hbound : Closed ';' bound) (hupdate : Closed ';' update) (number : Nat) :
    (read number (forText keyword name start op bound update)).effect env =
      match evaluate env start, evaluate env bound with
      | .number a, .number b =>
        if keyword = none ∧ env.isConstant name = true then
          .error (.constReassignment name number)
        else .ok (.startLoop (some ⟨name, a, b⟩))
      | _, _ => .ok (.startLoop none) := by
  have hcounts := counts_forText keyword hname hfree hstart op hbound hupdate number
  rw [effect, hcounts.kind]
  exact (hcounts.loopEffect_eq env).trans (forEffect_header keyword hname start op bound _)

theorem effect_whileText (hname : isVariableName name = true) (op : Comparison)
    (hbound : Closed ';' bound) (number : Nat) :
    (read number (whileText name op bound)).effect env =
      .ok (.meetLoop
        ((evaluate env bound).number?.map fun b => ⟨name, (env.numberOf? name).getD 0.0, b⟩)
        (op.holds (evaluate env name) (evaluate env bound))) := by
  have hword := isWord_of_isVariableName hname
  have hnested := (closed_conditionText hword op hbound).nested
  obtain ⟨hread, rest, hrest, hwhole, hgroup⟩ := read_headerText (.inr rfl) hnested number
  have hkeyword := Text.afterKeyword_eq_some_iff.2 ⟨hrest, hwhole⟩
  rw [whileText, hread, effect]
  dsimp only
  rw [loopEffect]
  dsimp only
  rw [hkeyword, Option.bind_some, hgroup]
  dsimp only
  rw [conditionHeader?_conditionText hname, evaluate_conditionText hword]
  rfl

/-! ### States -/

/-- Loop headers do what they say. A counting loop whose start and bound are numbers sets its
variable and opens one tracker for its line, and fails if it assigns to a constant without
declaring it; with anything else it is only recorded. A loop with a condition leaves the
variables, opens one tracker for its line if its bound is a number, and records whether the
condition holds. A variable that was set is bound to the start and no other name is, and there
is one more entry on the timeline. -/
theorem headers_as_written (hname : isWord name = true)
    (hfree : ∀ keyword : Keyword, name ≠ keyword.text) (hstart : Closed ';' start)
    (hbound : Closed ';' bound) (hupdate : Closed ';' update) (keyword : Option Keyword)
    (op : Comparison) (number : Nat) (state : State) :
    let counting := read number (forText keyword name start op bound update)
    let conditional := read number (whileText name op bound)
    let outcome := if op.holds (evaluate state.environment name) (evaluate state.environment bound)
      then "Loop: continuing".toList else "Loop: finished".toList
    counting.execute.run state =
        (match evaluate state.environment start, evaluate state.environment bound with
        | .number a, .number b =>
          if keyword = none ∧ state.environment.isConstant name = true then
            .error (.constReassignment name number) state
          else .ok () { state with
            environment := state.environment.set name (.number a) false
            loops :=
              if state.loops.hasHeader number then state.loops
              else state.loops.openLoop name a b number
            timeline := state.timeline.record number .loop "Loop started".toList }
        | _, _ => .ok () { state with
            timeline := state.timeline.record number .loop "Loop started".toList }) ∧
      (∀ next, counting.execute.run state = .ok () next →
        next.timeline.entries = state.timeline.entries ++
          [⟨number, "Loop started".toList, state.timeline.next, .loop⟩] ∧
        ∀ a b, evaluate state.environment start = .number a →
          evaluate state.environment bound = .number b →
          next.environment.get? name = some ⟨name, .number a, .number, false⟩ ∧
          ∀ other ≠ name, next.environment.get? other = state.environment.get? other) ∧
      (name.head?.any Char.isDigit = false →
        ∃ next, conditional.execute.run state = .ok () next ∧
          next = { state with
            loops :=
              match evaluate state.environment bound with
              | .number b =>
                if state.loops.hasHeader number then state.loops
                else
                  state.loops.openLoop name ((state.environment.numberOf? name).getD 0.0) b number
              | _ => state.loops
            timeline := state.timeline.record number .loop outcome } ∧
          next.timeline.entries = state.timeline.entries ++
            [⟨number, outcome, state.timeline.next, .loop⟩]) := by
  intro counting conditional outcome
  refine ⟨?_, ?_, ?_⟩
  · rw [run_execute, effect_forText keyword hname hfree hstart op hbound hupdate]
    cases evaluate state.environment start with
    | number a =>
      cases evaluate state.environment bound with
      | number b =>
        dsimp only
        split <;> rfl
      | _ => rfl
    | _ => rfl
  · intro next hnext
    rw [run_execute, effect_forText keyword hname hfree hstart op hbound hupdate] at hnext
    constructor
    · split at hnext
      · split at hnext <;> cases hnext
        rfl
      · cases hnext
        rfl
    · intro a b ha hb
      rw [ha, hb] at hnext
      dsimp only at hnext
      split at hnext <;> cases hnext
      exact ⟨Environment.get?_set_self _ name _ _,
        fun _ hother => Environment.get?_set_of_ne _ _ _ hother⟩
  · intro hdigit
    have hvariable : isVariableName name = true := by
      rw [isVariableName, hname, hdigit]
      rfl
    refine ⟨_, ?_, rfl, rfl⟩
    rw [run_execute, effect_whileText hvariable op hbound]
    dsimp only [outcome]
    cases evaluate state.environment bound with
    | number b => rfl
    | _ => rfl

/-- The update has a semicolon and a parenthesis in a literal, and an array in a call. -/
theorem headers_as_written_call :
    Closed ';' "0".toList ∧ Closed ';' "3".toList ∧ Closed ';' "f(';)', [i])".toList ∧
      (∃ next, (read 7 (forText none "i".toList "0".toList .lt "3".toList
          "f(';)', [i])".toList)).execute.run (State.initial []) = .ok () next ∧
        next.environment.get? "i".toList = some ⟨"i".toList, .number 0.0, .number, false⟩ ∧
        next.loops.trackers.map (fun t => (t.variableName, t.line)) = [("i".toList, 7)]) ∧
      ∃ next, (read 7 (whileText "i".toList .lt "3".toList)).execute.run (State.initial []) =
          .ok () next ∧
        next.environment = .empty ∧
        next.loops.trackers.map (fun t => (t.variableName, t.line)) = [("i".toList, 7)] := by
  have hname : isWord "i".toList = true := by decide
  have hfree : ∀ keyword : Keyword, "i".toList ≠ keyword.text := by
    intro keyword
    cases keyword <;> decide
  have hzero : Closed ';' "0".toList := .of_all (by decide)
  have hthree : Closed ';' "3".toList := .of_all (by decide)
  have harray : Nested ('[' :: ("i".toList ++ [']']) ++ []) :=
    .group (by decide) (.of_all (by decide)) .nil
  have hbody : Nested ('\x27' :: (";)".toList ++ ['\x27']) ++ (", ".toList ++ "[i]".toList)) :=
    .literal rfl (Expression.isLiteralBody_iff.1 (by decide))
      ((Nested.of_all (by decide)).append harray)
  have hgroup : Nested ('(' :: ("';)', [i]".toList ++ [')']) ++ []) :=
    .group (by decide) hbody .nil
  have hcall : Closed ';' "f(';)', [i])".toList := ⟨.plain (by decide) hgroup, by decide⟩
  obtain ⟨hfor, hreads, hwhile⟩ := headers_as_written hname hfree hzero hthree hcall none .lt 7
    (State.initial [])
  have hstart : evaluate (State.initial []).environment "0".toList = .number 0.0 :=
    Expression.evaluate_of_atom? rfl
  have hbound : evaluate (State.initial []).environment "3".toList = .number 3.0 :=
    Expression.evaluate_of_atom? rfl
  rw [hstart, hbound] at hfor
  obtain ⟨next, hwhile, rfl, -⟩ := hwhile (by decide)
  rw [hbound] at hwhile
  exact ⟨hzero, hthree, hcall, ⟨_, hfor, ((hreads _ hfor).2 _ _ hstart hbound).1, rfl⟩,
    ⟨_, hwhile, rfl, rfl⟩⟩

end Stepwise.Line
