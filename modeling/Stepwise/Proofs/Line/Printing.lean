import Stepwise.Proofs.Engine.Step
import Stepwise.Proofs.Expression.Evaluation
import Stepwise.Proofs.Expression.Nested
import Stepwise.Proofs.Line.Calls
import Stepwise.Proofs.Line.Kinds

/-!
# Output calls

The arguments of an output call are cut out of the line by matching parentheses, and then split
at commas by a scan that knows all brackets. Closed arguments come back one by one, whatever
commas, parentheses and literals are in them and whatever follows the call on its line. So a call
prints the values of its arguments, and changes nothing but the console and the timeline.

## Main definitions

* `Stepwise.Line.outputText` — an output call as it is written.
* `Stepwise.Line.printed` — what it prints.

## Main results

* `Stepwise.Line.outputArguments?_outputText` — the arguments of a call are found.
* `Stepwise.Line.output_round_trip` — what executing a call does.
-/

namespace Stepwise.Line

open Expression (Closed Nested delimiters evaluate)
open Text (Tight parenGroup splitTopLevel)

variable {method inner : Text} {arguments : List Text}

/-- An output call. -/
def outputText (method : Text) (arguments : List Text) : Text :=
  "console.".toList ++ (method ++ '(' :: (Text.join [',', ' '] arguments ++ [')']))

/-- The values of the arguments, with spaces between them. -/
def printed (env : Environment) (arguments : List Text) : Text :=
  Text.join [' '] (arguments.map fun argument => (evaluate env argument).display)

example : outputText "log".toList ["'a, b'".toList, "f(x, y)".toList] =
    "console.log('a, b', f(x, y))".toList := rfl

/-! ### The arguments -/

/-- The call with which a text starts is the first one. -/
theorem outputArguments?_of_outputCall? {text call : Text} (hcall : outputCall? text = some call)
    (hgroup : parenGroup call = some inner) : outputArguments? text = some inner := by
  cases text with
  | nil => cases hcall
  | cons c text =>
    rw [outputArguments?, hcall]
    exact hgroup ▸ Option.some_or

/-- The arguments of a call reach up to the parenthesis that closes it. -/
theorem outputArguments?_outputText (hmethod : method ∈ outputMethods)
    (hnested : Nested (Text.join [',', ' '] arguments)) (rest : Text) :
    outputArguments? (outputText method arguments ++ rest) =
      some (Text.join [',', ' '] arguments) := by
  have hparts : ∀ lead : Text,
      lead ++ (method ++ '(' :: (Text.join [',', ' '] arguments ++ [')'])) ++ rest =
        lead ++ (method ++ '(' :: (Text.join [',', ' '] arguments ++ ')' :: rest)) := by simp
  unfold outputText
  rw [hparts]
  refine outputArguments?_of_outputCall? ?_ (hnested.parenGroup_eq rest)
  exact outputCall?_eq_some_iff.2 ⟨_, rfl, method, hmethod, rfl⟩

/-- The arguments are split as they were put together, and white space does not count. -/
theorem map_display_splitTopLevel (hne : arguments ≠ [])
    (hclosed : ∀ argument ∈ arguments, Closed ',' argument) (env : Environment) :
    (splitTopLevel ',' (Text.join [',', ' '] arguments)).map
        (fun argument => (evaluate env argument).display) =
      arguments.map fun argument => (evaluate env argument).display := by
  obtain ⟨first, others, rfl⟩ := List.exists_cons_of_ne_nil hne
  obtain ⟨hfirst, hothers⟩ := List.forall_mem_cons.1 hclosed
  have hgap : Closed ',' [' '] := .of_all (by decide)
  rw [Expression.splitTopLevel_join (by decide) hgap hfirst hothers, List.map_cons, List.map_cons,
    List.map_map]
  refine congrArg _ (List.map_congr_left fun argument _ => ?_)
  exact congrArg Value.display (Expression.evaluate_cons_blank rfl argument)

/-! ### The line -/

/-- A call is read as a line that prints, and what follows it is trimmed. -/
theorem read_outputText (hmethod : method ∈ outputMethods)
    (hnested : Nested (Text.join [',', ' '] arguments)) (rest : Text) (number : Nat) :
    read number (outputText method arguments ++ rest) =
      ⟨number, .output, outputText method arguments ++ Text.trimRight rest, 0⟩ := by
  have htight : Tight (outputText method arguments) := by
    have hfirst : Tight "console.".toList := by decide
    have hlast : Tight [')'] := by decide
    have hwhole := hfirst.append hlast (method ++ '(' :: Text.join [',', ' '] arguments)
    rwa [List.append_assoc] at hwhole
  have hkind : kindOf (outputText method arguments ++ Text.trimRight rest) = .output := by
    have harguments := outputArguments?_outputText hmethod hnested (Text.trimRight rest)
    unfold outputText at harguments ⊢
    rw [List.append_assoc] at harguments ⊢
    exact kindOf_output (Option.isSome_iff_exists.2 ⟨_, harguments⟩)
  rw [read, htight.trim_append, hkind]
  rfl

/-- Output calls print their arguments. The line is an output call whatever follows on it, and
executing it changes two things: the console has one more line, which shows the values of the
arguments in order, and the timeline has one more entry, which repeats it. -/
theorem output_round_trip (hmethod : method ∈ outputMethods) (hne : arguments ≠ [])
    (hclosed : ∀ argument ∈ arguments, Closed ',' argument) (rest : Text) (number : Nat)
    (state : State) :
    let line := read number (outputText method arguments ++ rest)
    let text := printed state.environment arguments
    line.kind = .output ∧
      ∃ next, line.execute.run state = .ok () next ∧
        next = { state with
          console := state.console ++ [text]
          timeline := state.timeline.record number .output ("Output: ".toList ++ text) } ∧
        next.timeline.entries = state.timeline.entries ++
          [⟨number, "Output: ".toList ++ text, state.timeline.next, .output⟩] := by
  intro line text
  have hgap : Closed ',' [' '] := .of_all (by decide)
  have hnested := Expression.nested_join (by decide) hgap hclosed
  have harguments := outputArguments?_outputText hmethod hnested (Text.trimRight rest)
  have hline : line = ⟨number, .output, outputText method arguments ++ Text.trimRight rest, 0⟩ :=
    read_outputText hmethod hnested rest number
  have heffect : line.effect state.environment = .ok (.print text) := by
    rw [hline, effect]
    dsimp only
    rw [outputEffect]
    dsimp only
    rw [harguments]
    dsimp only
    rw [map_display_splitTopLevel hne hclosed]
    rfl
  refine ⟨by rw [hline], _, ?_, rfl, rfl⟩
  rw [run_execute, heffect]
  rfl

/-- One argument has a comma, a parenthesis and a call in a literal, the other one nests brackets
of all kinds; a call that is not closed follows. -/
theorem output_round_trip_brackets :
    "warn".toList ∈ outputMethods ∧ Closed ',' "'), console.log('".toList ∧
      Closed ',' "f([\x7ba: 1\x7d, 2], x)".toList ∧
      ∃ next, (read 4 (outputText "warn".toList ["'), console.log('".toList,
          "f([\x7ba: 1\x7d, 2], x)".toList] ++ "; g(".toList)).execute.run (State.initial []) =
            .ok () next ∧
        next.console = ["), console.log( f([\x7ba: 1\x7d, 2], x)".toList] := by
  have hmethod : "warn".toList ∈ outputMethods := by decide
  have hliteral : Nested ('\x27' :: ("), console.log(".toList ++ ['\x27']) ++ []) :=
    .literal rfl (Expression.isLiteralBody_iff.1 (by decide)) .nil
  have hcurly : Nested ('\x7b' :: ("a: 1".toList ++ ['\x7d']) ++ ", 2".toList) :=
    .group (by decide) (.of_all (by decide)) (.of_all (by decide))
  have hsquare : Nested ('[' :: ("\x7ba: 1\x7d, 2".toList ++ [']']) ++ ", x".toList) :=
    .group (by decide) hcurly (.of_all (by decide))
  have hround : Nested ('(' :: ("[\x7ba: 1\x7d, 2], x".toList ++ [')']) ++ []) :=
    .group (by decide) hsquare .nil
  have hfirst : Closed ',' "'), console.log('".toList := ⟨hliteral, by decide⟩
  have hsecond : Closed ',' "f([\x7ba: 1\x7d, 2], x)".toList :=
    ⟨.plain (by decide) hround, by decide⟩
  have hclosed : ∀ argument ∈
      ["'), console.log('".toList, "f([\x7ba: 1\x7d, 2], x)".toList], Closed ',' argument :=
    List.forall_mem_cons.2 ⟨hfirst, List.forall_mem_singleton.2 hsecond⟩
  obtain ⟨-, _, hexecute, rfl, -⟩ := output_round_trip hmethod (List.cons_ne_nil _ _) hclosed
    "; g(".toList 4 (State.initial [])
  refine ⟨hmethod, hfirst, hsecond, _, hexecute, ?_⟩
  have hstring : evaluate (State.initial []).environment "'), console.log('".toList =
      .str "), console.log(".toList := Expression.evaluate_of_atom? rfl
  have hsymbolic : evaluate (State.initial []).environment "f([\x7ba: 1\x7d, 2], x)".toList =
      .symbolic "f([\x7ba: 1\x7d, 2], x)".toList := Expression.evaluate_of_unsplit rfl rfl rfl
  rw [printed, List.map_cons, List.map_singleton, hstring, hsymbolic]
  rfl

end Stepwise.Line
