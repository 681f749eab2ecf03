import Mathlib.Data.List.Infix
import Stepwise.Proofs.Engine.Schedule

/-!
# Lines with other numbers

What a line does depends on its text and on the variables. Its number enters in two places
only: in the description of a line that nothing is known about, and in the report of a
failure. The numbers of the executable lines of two sources correspond to each other in the
order of the lines.

## Main definitions

* `Stepwise.Line.placeholder` — the description of a line that nothing is known about.
* `Stepwise.Line.Alike` — what two lines do that differ in their numbers only.
* `Stepwise.Line.executableTexts` — the texts of the executable lines.
* `Stepwise.Line.counterpart` — the number of the corresponding line of another source.

## Main results

* `Stepwise.Line.effect_alike` — lines with the same text do the same.
* `Stepwise.Line.map_counterpart_stops` — counterparts of stops are stops.
-/

namespace Stepwise.Line

open Text (isWordChar)

/-! ### Descriptions -/

/-- The description of a line that nothing is known about. -/
def placeholder (number : Nat) : Text :=
  "Line ".toList ++ Text.ofNat number

/-- The description says what a line does. -/
def isSpecific (description : Text) : Bool :=
  !Text.startsWith "Line ".toList description

/-- A description that says what a line does is no placeholder. -/
theorem ne_placeholder {description : Text} (h : isSpecific description = true) (number : Nat) :
    description ≠ placeholder number := by
  rintro rfl
  have hlead : Text.afterLead "Line ".toList (placeholder number) = some (Text.ofNat number) :=
    Text.afterLead_eq_some_iff.2 rfl
  rw [isSpecific, Text.startsWith, hlead] at h
  cases h

/-- An assigned name is followed by a colon, so even a variable called `Line` makes no
placeholder. -/
theorem isSpecific_assignment {name : Text} (hname : Text.isWord name = true) (rest : Text) :
    isSpecific (name ++ (": ".toList ++ rest)) = true := by
  rw [isSpecific, Text.startsWith, Bool.not_eq_true', Option.isSome_eq_false_iff,
    Option.isNone_iff_eq_none, Option.eq_none_iff_forall_ne_some]
  intro tail htail
  have heq := Text.afterLead_eq_some_iff.1 htail
  have hfirst := congrArg (List.find? fun c => !isWordChar c) heq
  have hnone : name.find? (fun c => !isWordChar c) = none := by
    rw [Text.isWord, Bool.and_eq_true] at hname
    rw [List.find?_eq_none]
    intro c hc
    simp [List.all_eq_true.1 hname.2 c hc]
  have hspace : ("Line ".toList ++ tail).find? (fun c => !isWordChar c) = some ' ' := rfl
  have hcolon : (": ".toList ++ rest).find? (fun c => !isWordChar c) = some ':' := rfl
  rw [hspace, List.find?_append, hnone, hcolon] at hfirst
  exact absurd hfirst (by decide)

/-! ### Effects -/

/-- What two lines do that differ in their numbers only. -/
inductive Alike (number number' : Nat) :
    Except StepError Effect → Except StepError Effect → Prop
  /-- Nothing is known about the lines. -/
  | other : Alike number number' (.ok (.note .other (placeholder number)))
      (.ok (.note .other (placeholder number')))
  /-- The lines have the same effect. -/
  | same {effect : Effect} (specific : isSpecific effect.entry.2 = true) :
      Alike number number' (.ok effect) (.ok effect)
  /-- The lines write the same constant. -/
  | fails (name : Text) : Alike number number' (.error (.constReassignment name number))
      (.error (.constReassignment name number'))

variable {env : Environment} {line line' : Line}

theorem declarationEffect_alike (htext : line'.text = line.text) :
    Alike line.number line'.number (.ok (declarationEffect env line))
      (.ok (declarationEffect env line')) := by
  unfold declarationEffect
  rw [htext]
  cases declarationKeyword? (Text.cutStatement line.text) with
  | none => exact .other
  | some pair =>
    obtain ⟨keyword, rest⟩ := pair
    simp only
    cases declared? env rest.trim with
    | none => exact .other
    | some pair => exact .same rfl

theorem assignmentEffect_alike (htext : line'.text = line.text) :
    Alike line.number line'.number (assignmentEffect env line) (assignmentEffect env line') := by
  unfold assignmentEffect
  rw [htext]
  cases hparts : assignmentParts? (Text.cutStatement line.text) with
  | none => exact .other
  | some pair =>
    obtain ⟨name, right⟩ := pair
    simp only
    split
    · exact .fails name
    · refine .same ?_
      simp only [Effect.entry, List.append_assoc]
      exact isSpecific_assignment (assignmentParts?_eq_some_iff.1 hparts).word _

theorem conditionalEffect_alike (htext : line'.text = line.text) :
    Alike line.number line'.number (.ok (conditionalEffect env line))
      (.ok (conditionalEffect env line')) := by
  unfold conditionalEffect
  rw [htext]
  simp only
  split
  · refine .same ?_
    simp only [Effect.entry]
    split <;> rfl
  · exact .same rfl

theorem definitionEffect_alike (htext : line'.text = line.text) :
    Alike line.number line'.number (.ok (definitionEffect line))
      (.ok (definitionEffect line')) := by
  unfold definitionEffect
  rw [htext]
  cases functionName? line.text with
  | none => exact .other
  | some name => exact .same rfl

theorem returnEffect_alike (htext : line'.text = line.text) :
    Alike line.number line'.number (.ok (returnEffect env line))
      (.ok (returnEffect env line')) := by
  unfold returnEffect
  rw [htext]
  cases returnExpression? line.text with
  | none => exact .other
  | some rest =>
    simp only
    split
    · exact .other
    · exact .same rfl

theorem outputEffect_alike (htext : line'.text = line.text) :
    Alike line.number line'.number (.ok (outputEffect env line))
      (.ok (outputEffect env line')) := by
  unfold outputEffect
  rw [htext]
  cases outputArguments? line.text with
  | none => exact .other
  | some arguments => exact .same rfl

theorem callEffect_alike (htext : line'.text = line.text) :
    Alike line.number line'.number (.ok (callEffect line)) (.ok (callEffect line')) := by
  unfold callEffect
  rw [htext]
  cases callName? line.text with
  | none => exact .other
  | some name => exact .same rfl

theorem loopEffect_alike (htext : line'.text = line.text) :
    Alike line.number line'.number (loopEffect env line) (loopEffect env line') := by
  unfold loopEffect
  rw [htext]
  cases (Text.afterKeyword "while".toList line.text).bind Text.firstParenGroup with
  | some condition =>
    refine .same ?_
    simp only [Effect.entry]
    split <;> rfl
  | none =>
    cases ((Text.afterKeyword "for".toList line.text).bind Text.firstParenGroup).bind
        forHeader? with
    | none => exact .same rfl
    | some header =>
      simp only [forEffect]
      split
      · split
        · exact .fails _
        · exact .same rfl
      · exact .same rfl

/-- Lines with the same text do the same. -/
theorem effect_alike (htext : line'.text = line.text) (hkind : line'.kind = line.kind) :
    Alike line.number line'.number (line.effect env) (line'.effect env) := by
  unfold effect
  rw [hkind]
  cases line.kind with
  | declaration => exact declarationEffect_alike htext
  | assignment => exact assignmentEffect_alike htext
  | conditional => exact conditionalEffect_alike htext
  | loop => exact loopEffect_alike htext
  | functionDefinition => exact definitionEffect_alike htext
  | return_ => exact returnEffect_alike htext
  | output => exact outputEffect_alike htext
  | functionCall => exact callEffect_alike htext
  | other => exact .other

/-! ### Counterparts -/

/-- The texts of the executable lines of a source. -/
def executableTexts (source : Text) : List Text :=
  ((program source).filter isExecutable).map text

/-- The number that corresponds to the number of a line in another source: the executable
lines correspond to each other in their order, and other numbers to themselves. -/
def counterpart (source source' : Text) (number : Nat) : Nat :=
  (stops source')[(stops source).idxOf number]?.getD number

variable {source source' : Text}

theorem length_stops_eq (htexts : executableTexts source = executableTexts source') :
    (stops source).length = (stops source').length := by
  simpa [executableTexts, stops] using congrArg List.length htexts

/-- The counterparts of the stops are the stops of the other source. -/
theorem map_counterpart_stops (htexts : executableTexts source = executableTexts source') :
    (stops source).map (counterpart source source') = stops source' := by
  have hlength := length_stops_eq htexts
  apply List.ext_getElem
  · rw [List.length_map, hlength]
  · intro i hi hi'
    rw [List.length_map] at hi
    -- The stops increase, so each number stands at one place only.
    have hnodup : (stops source).Nodup := (pairwise_stops source).imp Nat.ne_of_lt
    rw [List.getElem_map, counterpart, hnodup.idxOf_getElem i hi, List.getElem?_eq_getElem hi']
    rfl

/-- Zero, which numbers no line, is its own counterpart. -/
theorem counterpart_zero (htexts : executableTexts source = executableTexts source') :
    counterpart source source' 0 = 0 := by
  have hzero : 0 ∉ stops source := by
    intro hmem
    have hsublist : List.Sublist (stops source) ((program source).map number) :=
      List.filter_sublist.map number
    have hnumber := hsublist.mem hmem
    rw [program, map_number_readFrom, List.mem_range'] at hnumber
    omega
  rw [counterpart, List.idxOf_eq_length hzero, length_stops_eq htexts,
    List.getElem?_eq_none (Nat.le_refl _)]
  rfl

/-- The second line has the text and the kind of the first one, and its number is given by
`f`. -/
structure Corresponds (f : Nat → Nat) (line line' : Line) : Prop where
  text_eq : line'.text = line.text
  kind_eq : line'.kind = line.kind
  number_eq : line'.number = f line.number

theorem kind_of_mem_readFrom {first : Nat} {raws : List Text} (hmem : line ∈ readFrom first raws) :
    line.kind = kindOf line.text := by
  induction raws generalizing first with
  | nil => cases hmem
  | cons raw raws ih =>
    rcases List.mem_cons.1 hmem with rfl | hmem
    · rfl
    · exact ih hmem

/-- Lines correspond to each other if their texts and their renumbered numbers do. -/
theorem forall₂_corresponds {f : Nat → Nat} {lines lines' : List Line}
    (hkind : ∀ line ∈ lines, line.kind = kindOf line.text)
    (hkind' : ∀ line ∈ lines', line.kind = kindOf line.text)
    (htexts : lines.map text = lines'.map text)
    (hnumbers : (lines.map number).map f = lines'.map number) :
    List.Forall₂ (Corresponds f) lines lines' := by
  induction lines generalizing lines' with
  | nil =>
    cases lines' with
    | nil => exact .nil
    | cons => cases htexts
  | cons line lines ih =>
    cases lines' with
    | nil => cases htexts
    | cons line' lines' =>
      obtain ⟨htext, htexts⟩ := List.cons.inj htexts
      obtain ⟨hnumber, hnumbers⟩ := List.cons.inj hnumbers
      refine .cons ⟨htext.symm, ?_, hnumber.symm⟩ (ih ?_ ?_ htexts hnumbers)
      · rw [hkind line List.mem_cons_self, hkind' line' List.mem_cons_self, htext]
      · exact fun other hmem => hkind other (List.mem_cons_of_mem _ hmem)
      · exact fun other hmem => hkind' other (List.mem_cons_of_mem _ hmem)

/-- The executable lines of sources with the same executable texts correspond to each
other. -/
theorem forall₂_executable (htexts : executableTexts source = executableTexts source') :
    List.Forall₂ (Corresponds (counterpart source source'))
      ((program source).filter isExecutable) ((program source').filter isExecutable) := by
  refine forall₂_corresponds ?_ ?_ htexts (map_counterpart_stops htexts)
  · exact fun line hmem => kind_of_mem_readFrom (List.mem_of_mem_filter hmem)
  · exact fun line hmem => kind_of_mem_readFrom (List.mem_of_mem_filter hmem)

end Stepwise.Line
