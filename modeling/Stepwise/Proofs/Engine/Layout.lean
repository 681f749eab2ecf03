import Stepwise.Proofs.Engine.Following
import Stepwise.Proofs.Line.Renumbering

/-!
# Layout does not matter

Two sources with the same executable texts can differ in indentation, in white space at the
ends of lines, in their line breaks, and in blank lines, comments and lines of braces. Their
runs go in lock-step: the states differ in the numbers of lines and in nothing else.
Replacing these numbers commutes with every step, so it commutes with whole runs.

## Main definitions

* `Stepwise.State.renumber`, `Stepwise.Snapshot.renumber` — a state or a snapshot with other
  numbers of lines.
* `Stepwise.Engine.InStep` — the second engine is the first one with other numbers of lines.

## Main results

* `Stepwise.State.step_renumber` — renumbering commutes with the step onto a line.
* `Stepwise.Engine.InStep.advance` — engines in step stay in step.
* `Stepwise.Engine.run_layout` — the runs of two layouts of one program.
-/

namespace Stepwise

variable (f : Nat → Nat)

/-! ### Other numbers of lines -/

/-- An entry with another line; a placeholder names that line. -/
def Timeline.Entry.renumber (entry : Timeline.Entry) : Timeline.Entry :=
  { entry with
    line := f entry.line
    description :=
      if entry.description = Line.placeholder entry.line then Line.placeholder (f entry.line)
      else entry.description }

/-- A timeline with other lines. -/
def Timeline.renumber (timeline : Timeline) : Timeline :=
  { timeline with entries := timeline.entries.map (Timeline.Entry.renumber f) }

/-- A tracker with another line. -/
def Loop.Tracker.renumber (tracker : Loop.Tracker) : Loop.Tracker :=
  { tracker with line := f tracker.line }

/-- A table of trackers with other lines. -/
def Loop.Table.renumber (table : Loop.Table) : Loop.Table :=
  { table with trackers := table.trackers.map (Loop.Tracker.renumber f) }

namespace StepError

/-- How the report of a failure on a line starts. -/
def place (line : Nat) : Text :=
  "Error at line ".toList ++ Text.ofNat line ++ ": ".toList

/-- The report of a failure on the given line, for another line. -/
def renumberReport (line : Nat) (report : Text) : Text :=
  match Text.afterLead (place line) report with
  | some message => place (f line) ++ message
  | none => report

/-- The same failure on another line. -/
def renumber : StepError → StepError
  | .constReassignment name line => .constReassignment name (f line)
  | .stepLimitExceeded limit line => .stepLimitExceeded limit (f line)

/-- The report of a failure becomes that of the same failure on the other line. -/
theorem renumberReport_report (cause : StepError) :
    renumberReport f cause.line cause.report = (cause.renumber f).report := by
  have hmessage : Text.afterLead (place cause.line) cause.report = some cause.message :=
    Text.afterLead_eq_some_iff.2 rfl
  rw [renumberReport, hmessage]
  cases cause <;> rfl

end StepError

/-- A state with other lines. -/
@[simps]
def State.renumber (state : State) : State :=
  { state with
    loops := state.loops.renumber f
    timeline := state.timeline.renumber f
    error := state.error.map (StepError.renumberReport f state.currentLine)
    currentLine := f state.currentLine }

/-- A snapshot with other lines. The variables with their marks, the open calls, the output,
the stage and the number of steps are the same. -/
def Snapshot.renumber (snapshot : Snapshot) : Snapshot :=
  { snapshot with
    currentLine := f snapshot.currentLine
    history := snapshot.history.map (Timeline.Entry.renumber f)
    error := snapshot.error.map (StepError.renumberReport f snapshot.currentLine)
    loops := snapshot.loops.map (Loop.Tracker.renumber f) }

theorem Snapshot.capture_renumber (state : State) (previous : Option Environment) :
    capture (state.renumber f) previous = (capture state previous).renumber f :=
  rfl

/-! ### Operations -/

variable {f}

/-- A new entry is renumbered with the others: a description that says what the line does
stays. -/
theorem Timeline.record_renumber (timeline : Timeline) (line : Nat) (kind : Timeline.Kind)
    {description : Text} (h : Line.isSpecific description = true) :
    (timeline.renumber f).record (f line) kind description =
      (timeline.record line kind description).renumber f := by
  simp [record, renumber, Entry.renumber, Line.ne_placeholder h]

theorem Timeline.record_placeholder (timeline : Timeline) (line : Nat) (kind : Timeline.Kind) :
    (timeline.renumber f).record (f line) kind (Line.placeholder (f line)) =
      (timeline.record line kind (Line.placeholder line)).renumber f := by
  simp [record, renumber, Entry.renumber]

namespace Loop.Table

variable (table : Table)

/-- Writes feed the trackers whatever their lines are. -/
theorem feed_renumber (name : Text) (value : Value) :
    (table.renumber f).feed name value = (table.feed name value).renumber f := by
  unfold feed
  cases value.number? with
  | none => rfl
  | some x =>
    simp only [observe, renumber, List.map_map]
    congr 2
    funext tracker
    change (if tracker.follows name then _ else _) = Tracker.renumber f (if _ then _ else _)
    split <;> rfl

theorem openLoop_renumber (name : Text) (current bound : Float) (line : Nat) :
    (table.renumber f).openLoop name current bound (f line) =
      (table.openLoop name current bound line).renumber f := by
  simp only [openLoop, renumber, List.map_map, List.map_append]
  congr 3
  funext tracker
  change (if tracker.follows name then _ else _) = Tracker.renumber f (if _ then _ else _)
  split <;> rfl

theorem deactivateAll_renumber :
    (table.renumber f).deactivateAll = table.deactivateAll.renumber f := by
  simp only [deactivateAll, renumber, List.map_map]
  rfl

/-- A header that is met for the first time opens a tracker whatever the lines of the others
are. -/
theorem openHeader_renumber {line : Nat} (header : Effect.Header)
    (hnew : table.hasHeader line = false) (hnew' : (table.renumber f).hasHeader (f line) = false) :
    (table.renumber f).openHeader (f line) header = (table.openHeader line header).renumber f := by
  rw [openHeader, openHeader, hnew, hnew']
  exact openLoop_renumber table _ _ _ line

end Loop.Table

/-! ### Steps onto lines -/

namespace State

attribute [ext] State

variable {state : State} {number : Nat}

/-- A line that does the same under another number leaves the same state, renumbered. -/
theorem after_renumber {effect : Effect} (herror : state.error = none)
    (hnew : state.loops.hasHeader number = false)
    (hnew' : (state.loops.renumber f).hasHeader (f number) = false)
    (hspecific : Line.isSpecific effect.entry.2 = true) :
    (state.renumber f).after (f number) effect = (state.after number effect).renumber f := by
  -- Only loop headers look at the lines of the trackers.
  have hloops : ((state.renumber f).after (f number) effect).loops =
      (state.after number effect).loops.renumber f := by
    match effect with
    | .assign name value _ _ => exact Loop.Table.feed_renumber state.loops name value
    | .startLoop (some header) | .meetLoop (some header) _ =>
      exact Loop.Table.openHeader_renumber state.loops header hnew hnew'
    | .startLoop none | .meetLoop none _ | .print _ | .note _ _ => rfl
  have hvariables : ((state.renumber f).after (f number) effect).environment =
      (state.after number effect).environment := by
    match effect with
    | .assign .. | .startLoop (some _) | .startLoop none | .meetLoop (some _) _
    | .meetLoop none _ | .print _ | .note .. => rfl
  have hconsole : ((state.renumber f).after (f number) effect).console =
      (state.after number effect).console := by
    match effect with
    | .assign .. | .startLoop (some _) | .startLoop none | .meetLoop (some _) _
    | .meetLoop none _ | .print _ | .note .. => rfl
  refine State.ext hvariables hloops rfl hconsole ?_ rfl ?_ rfl rfl
  · exact Timeline.record_renumber state.timeline number effect.entry.1 hspecific
  · simp [herror]

theorem after_placeholder (herror : state.error = none) :
    (state.renumber f).after (f number) (.note .other (Line.placeholder (f number))) =
      (state.after number (.note .other (Line.placeholder number))).renumber f := by
  refine State.ext rfl rfl rfl rfl ?_ rfl ?_ rfl rfl
  · exact Timeline.record_placeholder state.timeline number .other
  · simp [herror]

theorem failed_renumber (cause : StepError) :
    (state.renumber f).failed (cause.renumber f) = (state.failed cause).renumber f := by
  refine State.ext rfl rfl rfl rfl rfl rfl ?_ ?_ rfl
  · exact congrArg some (StepError.renumberReport_report f cause).symm
  · cases cause <;> rfl

theorem finish_renumber : (state.renumber f).finish = state.finish.renumber f := by
  refine State.ext rfl ?_ rfl rfl rfl rfl rfl rfl rfl
  exact Loop.Table.deactivateAll_renumber state.loops

/-- Renumbering commutes with the step onto a line, provided that the line is not a header
that has opened a tracker. -/
theorem step_renumber {settings : EngineSettings} {line line' : Line}
    (hline : line.Corresponds f line') (herror : state.error = none)
    (hnew : state.loops.hasHeader line.number = false)
    (hnew' : (state.loops.renumber f).hasHeader line'.number = false) :
    (state.renumber f).step settings line' = (state.step settings line).renumber f := by
  have halike : Line.Alike line.number line'.number (line.effect state.environment)
      (line'.effect state.environment) := Line.effect_alike hline.text_eq hline.kind_eq
  rw [hline.number_eq] at halike hnew'
  rcases effect_or_refuses settings state line with ⟨effect, hbelow, hruns⟩ | ⟨cause, hrefuses⟩
  · rw [step_of_effect hbelow hruns]
    rw [hruns] at halike
    generalize hruns' : line'.effect state.environment = result at halike
    cases halike with
    | other =>
      have hstep : (state.renumber f).step settings line' = (state.renumber f).after line'.number
          (.note .other (Line.placeholder (f line.number))) := step_of_effect hbelow hruns'
      rw [hstep, hline.number_eq]
      exact after_placeholder herror
    | same hspecific =>
      have hstep : (state.renumber f).step settings line' =
          (state.renumber f).after line'.number effect := step_of_effect hbelow hruns'
      rw [hstep, hline.number_eq]
      exact after_renumber herror hnew hnew' hspecific
  · rw [step_of_refuses hrefuses, ← failed_renumber]
    refine step_of_refuses ?_
    cases hrefuses with
    | limit bounded reached =>
      rw [StepError.renumber, ← hline.number_eq]
      exact .limit bounded reached
    | constant below kind fixed fails =>
      rw [fails] at halike
      generalize hfails' : line'.effect state.environment = result at halike
      cases halike
      rw [← hline.number_eq] at hfails'
      rw [StepError.renumber, ← hline.number_eq]
      exact .constant below (hline.kind_eq ▸ kind) fixed hfails'

end State

namespace Engine

/-! ### Engines in step -/

/-- The second engine is the first one with other numbers of lines: it shows the same
otherwise, and corresponding lines are left to it. -/
structure InStep (f : Nat → Nat) (engine other : Engine) : Prop where
  settings_eq : other.settings = engine.settings
  state_eq : other.state = engine.state.renumber f
  last_eq : other.last = engine.last.renumber f
  /-- The lines not reached correspond to each other. -/
  remaining : List.Forall₂ (Line.Corresponds f) engine.remaining other.remaining

/-- A live engine has no error, and its next line has not opened a tracker. -/
structure Ready (engine : Engine) : Prop where
  /-- There is no error. -/
  error_eq : engine.state.status.isTerminal = false → engine.state.error = none
  /-- The next line has not opened a tracker. -/
  unmet : ∀ line index, engine.state.status.isTerminal = false →
    engine.next? = some (line, index) → engine.state.loops.hasHeader line.number = false

theorem ready_iterate (engine : Engine) (source : Text) (n : Nat) :
    (advance^[n] (engine.load source)).Ready where
  error_eq := (onSchedule_iterate (onSchedule_load engine source) n).error_eq
  unmet := fun _ _ live hnext =>
    (attentive_iterate engine source n).hasHeader_eq_false
      (onSchedule_iterate (onSchedule_load engine source) n) (Line.pairwise_stops source) live hnext

variable {engine other : Engine} {line : Line} {index : Nat}

/-- Without a line left to the first engine, none is left to the second one. -/
theorem InStep.next?_eq_none (h : InStep f engine other) (hnext : engine.next? = none) :
    other.next? = none := by
  cases hother : other.next? with
  | none => rfl
  | some pair =>
    have hremaining := h.remaining
    rw [remaining_of_next?_eq_none hnext, remaining_of_next? hother] at hremaining
    cases hremaining

/-- The next lines correspond to each other, and so do those behind them. -/
theorem InStep.exists_next? (h : InStep f engine other)
    (hnext : engine.next? = some (line, index)) :
    ∃ line' index', other.next? = some (line', index') ∧ line.Corresponds f line' ∧
      List.Forall₂ (Line.Corresponds f)
        ((engine.lines.drop (index + 1)).filter Line.isExecutable)
        ((other.lines.drop (index' + 1)).filter Line.isExecutable) := by
  have hremaining := h.remaining
  rw [remaining_of_next? hnext] at hremaining
  cases hother : other.next? with
  | none =>
    rw [remaining_of_next?_eq_none hother] at hremaining
    cases hremaining
  | some pair =>
    rw [remaining_of_next? hother] at hremaining
    obtain ⟨hline, hrest⟩ := List.forall₂_cons.1 hremaining
    exact ⟨pair.1, pair.2, rfl, hline, hrest⟩

/-- Engines in step stay in step. -/
theorem InStep.advance (h : InStep f engine other) (ready : engine.Ready) (ready' : other.Ready) :
    InStep f engine.advance other.advance := by
  have hstatus : other.state.status = engine.state.status := by
    rw [h.state_eq]
    rfl
  cases hended : engine.state.status.isTerminal with
  | true =>
    have hended' : other.state.status.isTerminal = true := hstatus ▸ hended
    rw [Engine.advance, if_pos hended, Engine.advance, if_pos hended']
    exact h
  | false =>
    have hended' : other.state.status.isTerminal = false := hstatus ▸ hended
    cases hnext : engine.next? with
    | none =>
      rw [advance_of_next?_eq_none hended hnext,
        advance_of_next?_eq_none hended' (h.next?_eq_none hnext)]
      have hstate : other.state.finish = engine.state.finish.renumber f := by
        rw [h.state_eq, State.finish_renumber]
      refine ⟨h.settings_eq, hstate, ?_, h.remaining⟩
      rw [complete_last, complete_last, hstate, Snapshot.capture_renumber]
    | some pair =>
      obtain ⟨line, index⟩ := pair
      obtain ⟨line', index', hnext', hline, hrest⟩ := h.exists_next? hnext
      have hnew := ready'.unmet line' index' hended' hnext'
      rw [h.state_eq] at hnew
      have hstate : other.state.step other.settings line' =
          (engine.state.step engine.settings line).renumber f := by
        rw [h.state_eq, h.settings_eq]
        exact State.step_renumber hline (ready.error_eq hended)
          (ready.unmet line index hended hnext) hnew
      rw [advance_of_next? hended hnext, advance_of_next? hended' hnext', hstate]
      refine ⟨h.settings_eq, rfl, ?_, hrest⟩
      rw [moveTo_last, moveTo_last, Snapshot.capture_renumber, h.state_eq]
      rfl

/-- Loaded with the same executable texts, an engine starts in step with itself. -/
theorem inStep_load (engine : Engine) {source source' : Text}
    (htexts : Line.executableTexts source = Line.executableTexts source') :
    InStep (Line.counterpart source source') (engine.load source) (engine.load source') := by
  have hstate : State.initial engine.settings.initialFrame =
      (State.initial engine.settings.initialFrame).renumber (Line.counterpart source source') :=
    State.ext rfl rfl rfl rfl rfl rfl rfl (Line.counterpart_zero htexts).symm rfl
  refine ⟨rfl, hstate, ?_, Line.forall₂_executable htexts⟩
  exact (congrArg (Snapshot.capture · none) hstate).trans (Snapshot.capture_renumber _ _ _)

theorem inStep_iterate (engine : Engine) {source source' : Text}
    (htexts : Line.executableTexts source = Line.executableTexts source') (n : Nat) :
    InStep (Line.counterpart source source') (advance^[n] (engine.load source))
      (advance^[n] (engine.load source')) := by
  induction n with
  | zero => exact inStep_load engine htexts
  | succ n ih =>
    rw [Function.iterate_succ_apply', Function.iterate_succ_apply']
    exact ih.advance (ready_iterate engine source n) (ready_iterate engine source' n)

/-- A run ends with one of its steps, and stays at its end. -/
theorem exists_isTerminal_iff (engine : Engine) (source : Text) :
    ∃ m, ∀ n, (advance^[n] (engine.load source)).state.status.isTerminal = true ↔ m < n := by
  obtain ⟨m, _, hlive, hended, _⟩ := exists_ending (onSchedule_load engine source) rfl rfl
  refine ⟨m, fun n => ⟨?_, ?_⟩⟩
  · intro hterminal
    by_contra hn
    rw [hlive n (Nat.not_lt.1 hn)] at hterminal
    cases hterminal
  · intro hn
    obtain ⟨k, rfl⟩ := Nat.exists_eq_add_of_le' hn
    rw [Function.iterate_add_apply, iterate_of_isTerminal hended]
    exact hended

/-- The runs of two sources with the same executable texts go in lock-step, whatever the
settings of the engine are. The executable lines correspond to each other in order. After any
number of steps the two snapshots differ only in the numbers of lines, which are replaced by
their counterparts: the current line, the lines of the trackers and of the timeline with its
placeholders, and the line in the report of a failure. Both runs end with the same step. -/
theorem run_layout (engine : Engine) (source source' : Text)
    (htexts : Line.executableTexts source = Line.executableTexts source') :
    (Line.stops source).map (Line.counterpart source source') = Line.stops source' ∧
      (∀ n, (advance^[n] (engine.load source')).last =
        (advance^[n] (engine.load source)).last.renumber (Line.counterpart source source')) ∧
      ∃ m, ∀ n, ((advance^[n] (engine.load source)).state.status.isTerminal = true ↔ m < n) ∧
        ((advance^[n] (engine.load source')).state.status.isTerminal = true ↔ m < n) := by
  have hstep := inStep_iterate engine htexts
  refine ⟨Line.map_counterpart_stops htexts, fun n => (hstep n).last_eq, ?_⟩
  obtain ⟨m, hm⟩ := exists_isTerminal_iff engine source
  refine ⟨m, fun n => ⟨hm n, ?_⟩⟩
  have hstatus := congrArg State.status (hstep n).state_eq
  rw [hstatus]
  exact hm n

/-- The second source is the first one with a comment, a blank line, lines of braces, other
line breaks and other white space around its lines. -/
theorem run_layout_indented :
    let source := "const a = 1\nfor (i = 0; i < 2; i++)\na = 2".toList
    let source' :=
      "// Start\r\n  const a = 1 \r\n\r\n\tfor (i = 0; i < 2; i++)\r\n\x7b\r\na = 2\r\n\x7d".toList
    Line.stops source = [1, 2, 3] ∧ Line.stops source' = [2, 4, 6] ∧
      (Line.stops source).map (Line.counterpart source source') = Line.stops source' ∧
      ∀ n, (advance^[n] ((new {}).load source')).last =
        (advance^[n] ((new {}).load source)).last.renumber (Line.counterpart source source') := by
  intro source source'
  have htexts : Line.executableTexts source = Line.executableTexts source' := by decide +kernel
  obtain ⟨hstops, hlast, _⟩ := run_layout (new {}) source source' htexts
  exact ⟨by decide +kernel, by decide +kernel, hstops, hlast⟩

end Engine

end Stepwise
