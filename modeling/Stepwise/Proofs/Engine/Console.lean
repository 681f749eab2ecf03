import Stepwise.Proofs.Engine.Coherence

/-!
# The console and the timeline

What a program prints is kept twice: as a line on the console and as an entry of the timeline
with a word in front. Both logs only grow. This file shows that the console can always be read
off the timeline, in every state of every run, and that what a snapshot has shown once is the
beginning of what all later snapshots of the run show.

## Main definitions

* `Stepwise.Timeline.Entry.printed?` — the printed line that an entry records.
* `Stepwise.State.Aligned` — the console is what the timeline records as output.
* `Stepwise.State.Grows` — both logs of a state go on from those of another.

## Main results

* `Stepwise.Line.note_ne_output` — nothing but printing is recorded as output.
* `Stepwise.Engine.Reachable.aligned` — the console and the timeline of a reachable engine agree.
* `Stepwise.Engine.grows_iterate` — the logs grow along a run.
* `Stepwise.Engine.output_of_history` — both, for the snapshots of a run.
-/

namespace Stepwise

/-! ### Entries that record output -/

/-- The printed line that an entry records: its description without the word in front. -/
def Timeline.Entry.printed? (entry : Timeline.Entry) : Option Text :=
  Text.afterLead "Output: ".toList entry.description

/-- The lines that an effect prints, one at most. -/
def Effect.printed : Effect → List Text
  | .print text => [text]
  | _ => []

/-- Nothing but printing is recorded as output. -/
theorem Line.note_ne_output {env : Environment} {line : Line} {kind : Timeline.Kind}
    {description : Text} (h : line.effect env = .ok (.note kind description)) :
    kind ≠ .output := by
  cases does_of_effect h with
  | pass passive => exact bne_iff_ne.1 passive

/-! ### One step -/

namespace State

/-- The console shows what the timeline records as output, in the same order. -/
def Aligned (state : State) : Prop :=
  (state.timeline.entries.filter fun entry => entry.kind = .output).map
      Timeline.Entry.printed? = state.console.map some

/-- The timeline and the console of the second state go on from those of the first. -/
structure Grows (state later : State) : Prop where
  /-- The entries are still there, in front of all others. -/
  entries : state.timeline.entries <+: later.timeline.entries
  /-- The printed lines are still there, in front of all others. -/
  console : state.console <+: later.console

theorem Grows.refl (state : State) : state.Grows state :=
  ⟨List.prefix_rfl, List.prefix_rfl⟩

theorem Grows.trans {state later last : State} (h : state.Grows later) (h' : later.Grows last) :
    state.Grows last :=
  ⟨h.entries.trans h'.entries, h.console.trans h'.console⟩

variable {state : State} {line : Line} {effect : Effect}

theorem console_after (state : State) (line : Nat) (effect : Effect) :
    (state.after line effect).console = state.console ++ effect.printed := by
  rw [after_console]
  match effect with
  | .print _ => rfl
  | .assign .. | .startLoop (some _) | .startLoop none | .meetLoop (some _) _
  | .meetLoop none _ | .note .. => exact (List.append_nil _).symm

theorem grows_after (state : State) (line : Nat) (effect : Effect) :
    state.Grows (state.after line effect) where
  entries := List.prefix_append _ _
  console := by
    rw [console_after]
    exact List.prefix_append _ _

/-- An entry that is recorded for an effect counts as output exactly when the effect prints,
and then it records the printed line. -/
theorem filter_entry (h : line.effect state.environment = .ok effect) (timestamp : Nat) :
    ([⟨line.number, effect.entry.2, timestamp, effect.entry.1⟩].filter
      fun entry : Timeline.Entry => entry.kind = .output).map Timeline.Entry.printed? =
        effect.printed.map some := by
  cases effect with
  | print text =>
    have hlead : Text.afterLead "Output: ".toList ("Output: ".toList ++ text) = some text :=
      Text.afterLead_eq_some_iff.2 rfl
    simpa [Effect.entry, Effect.printed, Timeline.Entry.printed?] using hlead
  | note kind description =>
    have hkind := Line.note_ne_output h
    simp [Effect.entry, Effect.printed, hkind]
  | assign | startLoop | meetLoop => rfl

theorem Aligned.after (haligned : state.Aligned) (h : line.effect state.environment = .ok effect) :
    (state.after line.number effect).Aligned := by
  unfold Aligned at haligned ⊢
  rw [after_timeline, console_after, Timeline.record, List.filter_append, List.map_append,
    List.map_append, haligned, filter_entry h]

end State

/-! ### Whole runs -/

namespace Engine

variable {engine next : Engine}

/-- The console and the timeline of a reachable engine agree. -/
theorem Reachable.aligned (h : engine.Reachable) : engine.state.Aligned := by
  apply h.state_induction
  · exact fun _ => rfl
  · exact fun _ _ _ heffect haligned => haligned.after heffect
  · exact fun _ _ haligned => haligned
  · exact fun _ haligned => haligned

/-- A step makes both logs grow, if it changes them. -/
theorem Step.grows (hstep : engine.Step next) : engine.state.Grows next.state := by
  cases hstep with
  | rest => exact .refl _
  | finish => exact ⟨List.prefix_rfl, List.prefix_rfl⟩
  | execute => exact State.grows_after _ _ _
  | fail => exact ⟨List.prefix_rfl, List.prefix_rfl⟩

/-- Both logs grow along a run. -/
theorem grows_iterate (engine : Engine) (n : Nat) :
    engine.state.Grows (advance^[n] engine).state := by
  induction n with
  | zero => exact .refl _
  | succ n ih =>
    rw [Function.iterate_succ_apply']
    exact ih.trans (step_advance _).grows

theorem Reachable.logs_of_shows (h : engine.Reachable) {snapshot : Snapshot}
    (hshows : engine.Shows snapshot) :
    snapshot.history = engine.state.timeline.entries ∧ snapshot.output = engine.state.console := by
  have hview := h.unmarked_of_shows hshows
  exact ⟨congrArg Snapshot.history hview, congrArg Snapshot.output hview⟩

/-- Take two snapshots of the same run, the later one any number of steps after the earlier
one. The printed lines of a snapshot are, in order, the entries of its history that record
output, each without the word in front; and the history and the printed lines of the earlier
snapshot are the beginning of those of the later one. -/
theorem output_of_history (engine : Engine) (reachable : engine.Reachable) (n : Nat)
    (earlier later : Snapshot) (hearlier : engine.Shows earlier)
    (hlater : (advance^[n] engine).Shows later) :
    (later.history.filter fun entry => entry.kind = .output).map
        (fun entry => Text.afterLead "Output: ".toList entry.description) =
      later.output.map some ∧
    earlier.history <+: later.history ∧ earlier.output <+: later.output := by
  obtain ⟨hhistory, houtput⟩ := reachable.logs_of_shows hearlier
  obtain ⟨hhistory', houtput'⟩ := (reachable_iterate reachable n).logs_of_shows hlater
  have hgrows := grows_iterate engine n
  rw [hhistory, houtput, hhistory', houtput']
  exact ⟨(reachable_iterate reachable n).aligned, hgrows.entries, hgrows.console⟩

/-- A program whose last line is refused: the printed line stays, and the text `Output: ` that
the program prints itself is kept. -/
theorem output_of_history_refused :
    let engine := ((new {}).load "const a = 1\nconsole.log('Output: ', a)\na = 2".toList).advance
    let later := (advance^[2] engine).last
    later.output = ["Output:  1".toList] ∧ later.status = .error ∧
      (later.history.filter fun entry => entry.kind = .output).map
          (fun entry => Text.afterLead "Output: ".toList entry.description) =
        later.output.map some ∧
      engine.current.history <+: later.history := by
  intro engine later
  obtain ⟨hprinted, hhistory, _⟩ := output_of_history engine (.advance (.load _ (.new _))) 2
    engine.current later (.inr rfl) (.inl rfl)
  exact ⟨by decide +kernel, by decide +kernel, hprinted, hhistory⟩

end Engine

end Stepwise
