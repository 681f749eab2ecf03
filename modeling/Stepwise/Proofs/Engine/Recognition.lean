import Stepwise.Proofs.Line.Recognition
import Stepwise.Proofs.Line.Renumbering

/-!
# Recognized lines are executed

The classifier decides from the whole text of a line what sort of statement it is, and the
engine reads the text once more to execute it. The two agree. The engine never passes over a
recognized line; an assignment writes the name by which it was recognized, or fails because
that is a constant; and a declaration with a value writes the name that it declares.

## Main definitions

* `Stepwise.State.Assigns` — what a state becomes when a name is written on a line.

## Main results

* `Stepwise.Engine.exists_next?_le` — the next line is not behind an executable one.
* `Stepwise.State.perform_of_assign` — a line that writes a name assigns it.
* `Stepwise.Engine.recognized_executed` — classification and execution agree.
-/

namespace Stepwise

open Expression (evaluate)
open Line (IsAssignment Keyword assignmentParts? declarationKeyword? placeholder)
open Text (cutStatement)

/-! ### Writing a name -/

/-- One state becomes another when a name is written on a line: the name is bound to the value,
all other names stay as they are, and the line is recorded as an assignment, in words that no
line has about which nothing is known. -/
structure State.Assigns (state : State) (line : Nat) (name : Text) (value : Value)
    (constant : Bool) (next : State) : Prop where
  environment_eq : next.environment = state.environment.set name value constant
  bound : next.environment.get? name = some ⟨name, value, value.kind, constant⟩
  others : ∀ other ≠ name, next.environment.get? other = state.environment.get? other
  recorded : ∃ description, next.timeline = state.timeline.record line .assignment description ∧
    next.timeline.entries = state.timeline.entries ++
      [⟨line, description, state.timeline.next, .assignment⟩] ∧
    ∀ number, description ≠ placeholder number

namespace State

variable {settings : EngineSettings} {state : State} {line : Line} {name description : Text}
  {value : Value} {constant : Bool}

/-- Below the limit a line whose effect is to write a name assigns it. -/
theorem perform_of_assign (below : ∀ limit ∈ settings.maxSteps, state.stepsTaken < limit)
    (runs : line.effect state.environment = .ok (.assign name value constant description))
    (specific : Line.isSpecific description = true) :
    ∃ next, state.perform settings line = .ok () next ∧
      state.Assigns line.number name value constant next := by
  rw [perform_of_below below, runs]
  exact ⟨_, rfl, rfl, Environment.get?_set_self _ name value constant,
    fun _ hother => Environment.get?_set_of_ne _ value constant hother,
    description, rfl, rfl, Line.ne_placeholder specific⟩

end State

/-! ### Effects -/

namespace Line

variable {line : Line} {name right rest : Text} {keyword : Keyword}

/-- An assignment is what its statement says: it fails on a constant and writes any other
name. -/
theorem effect_assignment (hkind : line.kind = .assignment)
    (h : IsAssignment (cutStatement line.text) name right) (env : Environment) :
    line.effect env =
      if env.isConstant name then .error (.constReassignment name line.number)
      else .ok (.assign name (evaluate env right) false
        (name ++ (": ".toList ++ (((env.valueOf? name).getD .undefined).display ++
          (" → ".toList ++ (evaluate env right).display))))) := by
  rw [effect, hkind]
  dsimp only
  rw [assignmentEffect, assignmentParts?_eq_some_iff.2 h]
  simp only [List.append_assoc]

/-- A declaration with a value is what its statement says: it writes the name, as a constant or
not. -/
theorem effect_declaration (hkind : line.kind = .declaration)
    (hkeyword : declarationKeyword? (cutStatement line.text) = some (keyword, rest))
    (h : IsAssignment rest.trim name right) (env : Environment) :
    line.effect env = .ok (.assign name (evaluate env right) (keyword == .const_)
      ("Set ".toList ++ name ++ " = ".toList ++ (evaluate env right).repr)) := by
  rw [effect, hkind]
  dsimp only
  rw [declarationEffect, hkeyword]
  dsimp only
  rw [declared?, assignmentParts?_eq_some_iff.2 h]

end Line

/-! ### The driver -/

namespace Engine

variable {engine : Engine} {line : Line}

/-- The lines of an engine have the kinds of their texts. -/
theorem Reachable.kind_eq (h : engine.Reachable) :
    ∀ line ∈ engine.lines, line.kind = Line.kindOf line.text := by
  induction h with
  | new settings => exact fun _ hmem => absurd hmem List.not_mem_nil
  | load source _ _ => exact fun line hmem => Line.kind_of_mem_readFrom hmem
  | reset _ ih => exact ih
  | @advance engine _ ih =>
    rw [(step_advance engine).program_eq.2.2]
    exact ih

/-- The next line is not behind an executable line that has not been reached. -/
theorem exists_next?_le {i : Nat} (hi : engine.nextIndex ≤ i) (hget : engine.lines[i]? = some line)
    (hline : line.isExecutable = true) :
    ∃ next index, engine.next? = some (next, index) ∧ index ≤ i := by
  obtain ⟨j, rfl⟩ := Nat.exists_eq_add_of_le hi
  have hplace : (engine.lines.drop engine.nextIndex)[j]? = some line := by
    rw [List.getElem?_drop, hget]
  cases hnext : engine.next? with
  | none =>
    have hmem : line ∈ engine.remaining :=
      List.mem_filter.2 ⟨List.mem_of_getElem? hplace, hline⟩
    rw [remaining_of_next?_eq_none hnext] at hmem
    exact absurd hmem List.not_mem_nil
  | some pair =>
    obtain ⟨next, index⟩ := pair
    obtain ⟨passed, hpassed, -, rfl, hdrop⟩ := drop_of_next? hnext
    refine ⟨next, _, rfl, Nat.add_le_add_left ?_ _⟩
    by_contra hlt
    rw [hdrop, List.getElem?_append_left (Nat.lt_of_not_le hlt)] at hplace
    rw [hpassed line (List.mem_of_getElem? hplace)] at hline
    cases hline

/-- Classification and execution agree. Recognized lines are executable, and the engine passes
over none of them. An assignment and the statement that is cut out of it have the same name:
executing the line below the limit fails on that name if it is a constant, and assigns it
otherwise. A declaration with a value, whether that is looked for in the whole text or in the
statement, assigns the name that it declares. -/
theorem recognized_executed (settings : EngineSettings) (state : State) (number : Nat)
    (raw : Text) :
    let line := Line.read number raw
    (line.kind ≠ .other → line.isExecutable = true) ∧
    (∀ engine : Engine, engine.Reachable → ∀ (i : Nat) (other : Line), engine.nextIndex ≤ i →
      engine.lines[i]? = some other → other.kind ≠ .other →
      ∃ next index, engine.next? = some (next, index) ∧ index ≤ i) ∧
    (line.kind = .assignment →
      ∃ name right cut, assignmentParts? line.text = some (name, right) ∧
        assignmentParts? (cutStatement line.text) = some (name, cut) ∧
        ((∀ limit ∈ settings.maxSteps, state.stepsTaken < limit) →
          (state.environment.isConstant name = true ∧
            state.perform settings line =
              .error (.constReassignment name number) { state with currentLine := number }) ∨
          state.environment.isConstant name = false ∧
            ∃ next, state.perform settings line = .ok () next ∧
              state.Assigns number name (evaluate state.environment cut) false next)) ∧
    (line.kind = .declaration → ∀ (statement rest name right : Text) (keyword : Keyword),
      statement = line.text ∨ statement = cutStatement line.text →
      declarationKeyword? statement = some (keyword, rest) →
      assignmentParts? rest.trim = some (name, right) →
      (∀ limit ∈ settings.maxSteps, state.stepsTaken < limit) →
      ∃ rest' cut, declarationKeyword? (cutStatement line.text) = some (keyword, rest') ∧
        assignmentParts? rest'.trim = some (name, cut) ∧
        ∃ next, state.perform settings line = .ok () next ∧
          state.Assigns number name (evaluate state.environment cut) (keyword == .const_) next) := by
  intro line
  refine ⟨Line.isExecutable_of_kind_ne rfl, ?_, ?_, ?_⟩
  · intro engine hreachable i other hi hget hother
    have hkind := hreachable.kind_eq other (List.mem_of_getElem? hget)
    exact exists_next?_le hi hget (Line.isExecutable_of_kind_ne hkind hother)
  · intro hkind
    obtain ⟨name, right, hwhole⟩ := Line.kindOf_eq_assignment_iff.1 hkind
    obtain ⟨cut, hcut⟩ := hwhole.exists_cut
    refine ⟨name, right, cut, Line.assignmentParts?_eq_some_iff.2 hwhole,
      Line.assignmentParts?_eq_some_iff.2 hcut, ?_⟩
    intro below
    have heffect := Line.effect_assignment hkind hcut state.environment
    by_cases hconstant : state.environment.isConstant name = true
    · rw [if_pos hconstant] at heffect
      refine .inl ⟨hconstant, ?_⟩
      rw [State.perform_of_below below, heffect]
      rfl
    · rw [if_neg hconstant] at heffect
      exact .inr ⟨Bool.eq_false_iff.2 hconstant,
        State.perform_of_assign below heffect (Line.isSpecific_assignment hcut.word _)⟩
  · intro hkind statement rest name right keyword hstatement hkeyword hparts below
    have hassignment := Line.assignmentParts?_eq_some_iff.1 hparts
    obtain ⟨rest', right', hkeyword', hassignment'⟩ :
        ∃ rest' right', declarationKeyword? (cutStatement line.text) = some (keyword, rest') ∧
          IsAssignment rest'.trim name right' := by
      rcases hstatement with rfl | rfl
      · exact Line.exists_cut_declaration hkeyword hassignment
      · exact ⟨rest, right, hkeyword, hassignment⟩
    have heffect := Line.effect_declaration hkind hkeyword' hassignment' state.environment
    exact ⟨rest', right', hkeyword', Line.assignmentParts?_eq_some_iff.2 hassignment',
      State.perform_of_assign below heffect rfl⟩

/-- A semicolon right behind the equals sign, and a comment there: both lines write their names
with the last step that is allowed. -/
theorem recognized_executed_cut :
    let settings : EngineSettings := { maxSteps := some 1 }
    let state := State.initial "main".toList
    let assignment := Line.read 2 "x =; y".toList
    let declaration := Line.read 3 "const z =// 1".toList
    let engine := (new settings).load "\x7d\nx =; y".toList
    (assignment.kind = .assignment ∧ assignment.isExecutable = true ∧
      ∃ value next, state.perform settings assignment = .ok () next ∧
        state.Assigns 2 ['x'] value false next) ∧
    (declaration.kind = .declaration ∧
      ∃ value next, state.perform settings declaration = .ok () next ∧
        state.Assigns 3 ['z'] value true next) ∧
    engine.nextIndex ≤ 1 ∧ ∃ next index, engine.next? = some (next, index) ∧ index ≤ 1 := by
  intro settings state assignment declaration engine
  have below : ∀ limit ∈ settings.maxSteps, state.stepsTaken < limit := by decide
  have hassignment : assignment.kind = .assignment := by decide
  have hparts : assignmentParts? assignment.text = some (['x'], "; y".toList) := by decide
  have hdeclaration : declaration.kind = .declaration := by decide
  have hkeyword : declarationKeyword? declaration.text = some (.const_, " z =// 1".toList) := by
    decide
  have hvalue : assignmentParts? (Text.trim " z =// 1".toList) = some (['z'], "// 1".toList) := by
    decide
  have hreachable : engine.Reachable := .load _ (.new settings)
  obtain ⟨hexecutable, hdriver, hassigns, -⟩ := recognized_executed settings state 2 "x =; y".toList
  obtain ⟨-, -, -, hdeclares⟩ := recognized_executed settings state 3 "const z =// 1".toList
  refine ⟨⟨hassignment, hexecutable (by rw [hassignment]; decide), ?_⟩, ⟨hdeclaration, ?_⟩,
    Nat.zero_le 1, ?_⟩
  · obtain ⟨name, right, cut, hwhole, -, hperform⟩ := hassigns hassignment
    rw [hparts] at hwhole
    cases hwhole
    rcases hperform below with ⟨hconstant, -⟩ | ⟨-, next, hnext, hwrites⟩
    · cases hconstant
    · exact ⟨_, next, hnext, hwrites⟩
  · obtain ⟨_, _, -, -, next, hnext, hwrites⟩ :=
      hdeclares hdeclaration _ _ _ _ _ (.inl rfl) hkeyword hvalue below
    exact ⟨_, next, hnext, hwrites⟩
  · exact hdriver engine hreachable 1 assignment (Nat.zero_le 1) (by decide) (by decide)

end Engine

end Stepwise
