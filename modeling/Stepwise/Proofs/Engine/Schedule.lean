import Mathlib.Data.List.Basic
import Mathlib.Data.Nat.Find
import Mathlib.Logic.Function.Iterate
import Stepwise.Proofs.Engine.Step

/-!
# The schedule of a run

The executable lines of a program are the stops of its runs. A run passes them one by one
in the order of the source; each step that succeeds passes one stop and records one entry.
The run ends when all stops are passed, or when the step onto the next one fails.

## Main definitions

* `Stepwise.Line.stops` — the numbers of the executable lines.
* `Stepwise.Engine.OnSchedule` — the invariant that ties the lines not reached, the count
  of steps and the timeline to the stops.
* `Stepwise.Engine.Ending` — the two ways in which a run ends.

## Main results

* `Stepwise.Engine.Step.onSchedule` — a step stays on schedule.
* `Stepwise.Engine.run_schedule` — how long a run takes, how it ends and what it records.
-/

namespace Stepwise

/-! ### Stops -/

namespace Line

/-- The numbers of the executable lines of a source. -/
def stops (source : Text) : List Nat :=
  ((program source).filter isExecutable).map number

theorem map_number_readFrom (first : Nat) (raws : List Text) :
    (readFrom first raws).map number = List.range' first raws.length := by
  induction raws generalizing first with
  | nil => rfl
  | cons raw raws ih =>
    rw [readFrom, List.map_cons, ih, List.length_cons, List.range'_succ]
    rfl

theorem pairwise_number_program (source : Text) :
    ((program source).map number).Pairwise (· < ·) := by
  rw [program, map_number_readFrom]
  exact List.pairwise_lt_range'

theorem pairwise_stops (source : Text) : (stops source).Pairwise (· < ·) :=
  (pairwise_number_program source).sublist (List.filter_sublist.map number)

end Line

namespace StepError

/-- The report of a failed assignment ends in the quote that closes the name. -/
theorem getLast?_report_constReassignment (name : Text) (line : Nat) :
    (constReassignment name line).report.getLast? = some '\'' := by
  have hreport : (constReassignment name line).report =
      "Error at line ".toList ++ Text.ofNat line ++ ": ".toList ++
        ("Assignment to constant variable '".toList ++ name ++ [ '\'' ]) := rfl
  rw [hreport, ← List.append_assoc, List.getLast?_concat]

/-- The report of an exceeded limit ends in a letter. -/
theorem getLast?_report_stepLimitExceeded (limit line : Nat) :
    (stepLimitExceeded limit line).report.getLast? = some 'd' := by
  have hreport : (stepLimitExceeded limit line).report =
      "Error at line ".toList ++ Text.ofNat line ++ ": ".toList ++
        ("Step limit of ".toList ++ Text.ofNat limit ++ " exceeded".toList) := rfl
  have hword : " exceeded".toList = " exceede".toList ++ ['d'] := by decide
  rw [hreport, hword, ← List.append_assoc, ← List.append_assoc, List.getLast?_concat]

/-- The two causes of a failure are never reported alike. -/
theorem report_constReassignment_ne (name : Text) (line limit line' : Nat) :
    (constReassignment name line).report ≠ (stepLimitExceeded limit line').report := by
  intro h
  have hlast := congrArg List.getLast? h
  rw [getLast?_report_constReassignment, getLast?_report_stepLimitExceeded] at hlast
  exact absurd hlast (by decide)

end StepError

namespace Engine

/-! ### The invariant -/

/-- An engine has passed some of the given stops, as many as it has taken steps, and has
recorded each of them. While the run goes on, the lines not reached are the other stops. -/
structure OnSchedule (stops : List Nat) (engine : Engine) : Prop where
  /-- The timeline has one entry for each step. -/
  length_eq : engine.state.timeline.entries.length = engine.state.stepsTaken
  /-- Entries are numbered in order and belong to the stops in order. -/
  entry_eq : ∀ (i : Nat) (entry : Timeline.Entry),
    engine.state.timeline.entries[i]? = some entry →
      entry.timestamp = i ∧ stops[i]? = some entry.line
  /-- The next entry gets the number of steps as its number. -/
  next_eq : engine.state.timeline.next = engine.state.stepsTaken
  /-- There are no more steps than the limit allows. -/
  within : ∀ limit ∈ engine.settings.maxSteps, engine.state.stepsTaken ≤ limit
  /-- Each step passes a stop. -/
  stepsTaken_le : engine.state.stepsTaken ≤ stops.length
  /-- The stops that are not passed are the lines not reached. -/
  remaining_eq : engine.state.status.isTerminal = false →
    engine.remaining.map Line.number = stops.drop engine.state.stepsTaken
  /-- The current line is the stop passed last. -/
  current_eq : engine.state.status.isTerminal = false →
    ∀ j, engine.state.stepsTaken = j + 1 → stops[j]? = some engine.state.currentLine
  /-- A run that goes on has no error. -/
  error_eq : engine.state.status.isTerminal = false → engine.state.error = none

variable {engine next : Engine} {stops : List Nat} {line : Line} {index : Nat}

/-- A loaded program is on schedule before its first step. -/
theorem onSchedule_load (engine : Engine) (source : Text) :
    OnSchedule (Line.stops source) (engine.load source) where
  length_eq := rfl
  entry_eq := by
    intro i entry h
    simp [load, reset, State.initial, Timeline.empty] at h
  next_eq := rfl
  within := fun _ _ => Nat.zero_le _
  stepsTaken_le := Nat.zero_le _
  remaining_eq := fun _ => rfl
  current_eq := by
    intro _ j h
    cases h
  error_eq := fun _ => rfl

theorem OnSchedule.drop_eq (h : OnSchedule stops engine)
    (live : engine.state.status.isTerminal = false) (hnext : engine.next? = some (line, index)) :
    stops.drop engine.state.stepsTaken =
      line.number :: ((engine.lines.drop (index + 1)).filter Line.isExecutable).map Line.number := by
  rw [← h.remaining_eq live, remaining_of_next? hnext, List.map_cons]

theorem OnSchedule.getElem?_eq (h : OnSchedule stops engine)
    (live : engine.state.status.isTerminal = false) (hnext : engine.next? = some (line, index)) :
    stops[engine.state.stepsTaken]? = some line.number := by
  have hdrop := congrArg List.head? (h.drop_eq live hnext)
  rwa [List.head?_drop] at hdrop

theorem OnSchedule.stepsTaken_eq (h : OnSchedule stops engine)
    (live : engine.state.status.isTerminal = false) (hnext : engine.next? = none) :
    engine.state.stepsTaken = stops.length := by
  have hdrop := h.remaining_eq live
  rw [remaining_of_next?_eq_none hnext] at hdrop
  exact Nat.le_antisymm h.stepsTaken_le (List.drop_eq_nil_iff.1 hdrop.symm)

/-- Executing the next line passes one stop and records it. -/
theorem OnSchedule.execute {effect : Effect} (h : OnSchedule stops engine)
    (live : engine.state.status.isTerminal = false) (hnext : engine.next? = some (line, index))
    (below : ∀ limit ∈ engine.settings.maxSteps, engine.state.stepsTaken < limit) :
    OnSchedule stops (engine.moveTo index (engine.state.after line.number effect)) := by
  have hstop := h.getElem?_eq live hnext
  have hlt : engine.state.stepsTaken < stops.length := (List.getElem?_eq_some_iff.1 hstop).1
  refine
    { length_eq := ?_, entry_eq := ?_, next_eq := ?_, within := below, stepsTaken_le := hlt,
      remaining_eq := fun _ => ?_, current_eq := fun _ => ?_, error_eq := fun _ => h.error_eq live }
  · simp [Timeline.record, h.length_eq]
  · intro i entry hentry
    simp only [moveTo_state, State.after_timeline, Timeline.record] at hentry
    rw [List.getElem?_append, h.length_eq] at hentry
    split at hentry
    · exact h.entry_eq i entry hentry
    · rename_i hi
      obtain rfl : i = engine.state.stepsTaken := by
        have := (List.getElem?_eq_some_iff.1 hentry).1
        rw [List.length_singleton] at this
        omega
      rw [Nat.sub_self] at hentry
      cases hentry
      exact ⟨h.next_eq, hstop⟩
  · simp [Timeline.record, h.next_eq]
  · have hdrop := congrArg List.tail (h.drop_eq live hnext)
    rw [List.tail_drop, List.tail_cons] at hdrop
    exact hdrop.symm
  · intro j hj
    obtain rfl : engine.state.stepsTaken = j := Nat.succ.inj hj
    exact hstop

/-- A step stays on schedule. -/
theorem Step.onSchedule (hstep : engine.Step next) (h : OnSchedule stops engine) :
    OnSchedule stops next := by
  cases hstep with
  | rest => exact h
  | finish live done =>
    exact
      { h with
        remaining_eq := fun live' => by cases live'
        current_eq := fun live' => by cases live'
        error_eq := fun live' => by cases live' }
  | execute live hnext below _ => exact h.execute live hnext below
  | fail live hnext _ =>
    exact
      { h with
        remaining_eq := fun live' => by cases live'
        current_eq := fun live' => by cases live'
        error_eq := fun live' => by cases live' }

theorem onSchedule_iterate (h : OnSchedule stops engine) (n : Nat) :
    OnSchedule stops (advance^[n] engine) := by
  induction n with
  | zero => exact h
  | succ n ih =>
    rw [Function.iterate_succ_apply']
    exact (step_advance _).onSchedule ih

/-! ### Endings -/

/-- How a run over the given stops ends when `m` of its steps have succeeded. -/
inductive Ending (settings : EngineSettings) (stops : List Nat) (m : Nat) (state : State) : Prop
  /-- All stops are passed. -/
  | complete (all : m = stops.length) (steps : state.stepsTaken = m)
      (status : state.status = .complete) (error : state.error = none)
  /-- The step onto the next stop fails. The cause is the limit exactly when there is one
  and the run has taken that many steps. -/
  | failed {cause : StepError} (stop : stops[m]? = some cause.line) (steps : state.stepsTaken = m)
      (status : state.status = .error) (current : state.currentLine = cause.line)
      (report : state.error =
        some ("Error at line ".toList ++ Text.ofNat cause.line ++ ": ".toList ++ cause.message))
      (reason : settings.maxSteps = some m ∧ cause = .stepLimitExceeded m cause.line ∨
        settings.maxSteps ≠ some m ∧ ∃ name, cause = .constReassignment name cause.line)

/-- A refused step ends the run with an error. -/
theorem OnSchedule.ending_of_refuses {cause : StepError} (h : OnSchedule stops engine)
    (live : engine.state.status.isTerminal = false) (hnext : engine.next? = some (line, index))
    (refused : engine.state.Refuses engine.settings line cause) :
    Ending engine.settings stops engine.state.stepsTaken (engine.state.failed cause) := by
  refine .failed ?_ rfl rfl rfl rfl ?_
  · rw [refused.line_eq]
    exact h.getElem?_eq live hnext
  · cases refused with
    | @limit limit bounded reached =>
      -- The count of steps never exceeds the limit, so here it has just reached it.
      have heq : engine.state.stepsTaken = limit :=
        Nat.le_antisymm (h.within limit bounded) reached
      exact .inl ⟨heq ▸ bounded, heq ▸ rfl⟩
    | constant below =>
      refine .inr ⟨?_, _, rfl⟩
      intro hlimit
      exact Nat.lt_irrefl _ (below _ hlimit)

/-- A step of a live engine succeeds, and then the engine is live again with one step more,
or it ends the run. -/
theorem OnSchedule.advance_cases (h : OnSchedule stops engine)
    (live : engine.state.status.isTerminal = false) :
    (engine.advance.state.status.isTerminal = false ∧
        engine.advance.state.stepsTaken = engine.state.stepsTaken + 1) ∨
      (engine.advance.state.status.isTerminal = true ∧
        Ending engine.settings stops engine.state.stepsTaken engine.advance.state) := by
  have hstep := step_advance engine
  generalize engine.advance = next at hstep
  cases hstep with
  | rest ended => rw [live] at ended; cases ended
  | finish _ done =>
    exact .inr ⟨rfl, .complete (h.stepsTaken_eq live done) rfl rfl (h.error_eq live)⟩
  | execute => exact .inl ⟨rfl, rfl⟩
  | fail _ hnext refused => exact .inr ⟨rfl, h.ending_of_refuses live hnext refused⟩

/-! ### Whole runs -/

/-- While the run goes on, each step counts. -/
theorem stepsTaken_iterate (h : OnSchedule stops engine) (hzero : engine.state.stepsTaken = 0)
    {n : Nat} (live : ∀ i ≤ n, (advance^[i] engine).state.status.isTerminal = false) :
    (advance^[n] engine).state.stepsTaken = n := by
  induction n with
  | zero => exact hzero
  | succ n ih =>
    have hcount := ih fun i hi => live i (Nat.le_succ_of_le hi)
    have hlive := live (n + 1) (Nat.le_refl _)
    rw [Function.iterate_succ_apply'] at hlive ⊢
    rcases (onSchedule_iterate h n).advance_cases (live n (Nat.le_succ n)) with
      ⟨_, hsteps⟩ | ⟨hended, _⟩
    · rw [hsteps, hcount]
    · rw [hended] at hlive
      cases hlive

/-- A run from the start of the stops ends, and there is one step for each stop passed
before the step that ends it. -/
theorem exists_ending (h : OnSchedule stops engine) (hzero : engine.state.stepsTaken = 0)
    (hlive : engine.state.status.isTerminal = false) :
    ∃ m ≤ stops.length,
      (∀ i ≤ m, (advance^[i] engine).state.status.isTerminal = false) ∧
      (advance^[m + 1] engine).state.status.isTerminal = true ∧
      Ending (advance^[m] engine).settings stops m (advance^[m + 1] engine).state := by
  -- A run that never ended would pass more stops than there are.
  have hends : ∃ n, (advance^[n] engine).state.status.isTerminal = true := by
    by_contra hnever
    push Not at hnever
    have hcount := stepsTaken_iterate h hzero (n := stops.length + 1)
      fun i _ => Bool.eq_false_iff.2 (hnever i)
    have hle := (onSchedule_iterate h (stops.length + 1)).stepsTaken_le
    omega
  obtain ⟨m, hm⟩ : ∃ m, Nat.find hends = m + 1 := by
    refine Nat.exists_eq_succ_of_ne_zero ?_
    intro hfirst
    have hended := Nat.find_spec hends
    rw [hfirst, Function.iterate_zero_apply, hlive] at hended
    cases hended
  have hbefore : ∀ i ≤ m, (advance^[i] engine).state.status.isTerminal = false := by
    intro i hi
    have := Nat.find_min hends (m := i) (by omega)
    simpa using this
  have hended : (advance^[m + 1] engine).state.status.isTerminal = true := hm ▸ Nat.find_spec hends
  have hcount := stepsTaken_iterate h hzero hbefore
  have hscheduled := onSchedule_iterate h m
  refine ⟨m, hcount ▸ hscheduled.stepsTaken_le, hbefore, hended, ?_⟩
  have hcases := hscheduled.advance_cases (hbefore m (Nat.le_refl m))
  rw [hcount, ← Function.iterate_succ_apply' advance m engine] at hcases
  rcases hcases with ⟨hgoes, _⟩ | ⟨_, hending⟩
  · rw [hended] at hgoes
    cases hgoes
  · exact hending

/-- A run with steps enough to end shows every state up to the end. -/
theorem runFor_eq {fuel m : Nat} (hfuel : m < fuel)
    (live : ∀ i ≤ m, (advance^[i] engine).state.status.isTerminal = false)
    (ended : (advance^[m + 1] engine).state.status.isTerminal = true) :
    engine.runFor fuel = (List.range (m + 1)).map fun i => advance^[i + 1] engine := by
  induction m generalizing fuel engine with
  | zero =>
    obtain ⟨fuel, rfl⟩ := Nat.exists_eq_succ_of_ne_zero (Nat.ne_zero_of_lt hfuel)
    have hlive : engine.state.status.isTerminal = false := live 0 (Nat.le_refl 0)
    have hended : engine.advance.state.status.isTerminal = true := ended
    cases fuel <;> simp [runFor, hlive, hended]
  | succ m ih =>
    obtain ⟨fuel, rfl⟩ := Nat.exists_eq_succ_of_ne_zero (Nat.ne_zero_of_lt hfuel)
    have hlive : engine.state.status.isTerminal = false := live 0 (Nat.zero_le _)
    have htail : engine.advance.runFor fuel =
        (List.range (m + 1)).map fun i => advance^[i + 1] engine.advance :=
      ih (Nat.lt_of_succ_lt_succ hfuel) (fun i hi => live (i + 1) (Nat.succ_le_succ hi)) ended
    rw [List.range_succ_eq_map, List.map_cons, List.map_map]
    simp only [runFor, hlive, Bool.false_eq_true, if_false, htail]
    rfl

theorem length_stops_le (engine : Engine) (source : Text) :
    (Line.stops source).length ≤ (engine.load source).lines.length := by
  rw [Line.stops, List.length_map]
  exact List.length_filter_le _ _

/-- A run that ends without reaching its limit never reports it. -/
theorem Ending.error_ne {settings : EngineSettings} {m limit : Nat} {state : State}
    (h : Ending settings stops m state) (hlimit : settings.maxSteps = some limit)
    (hle : stops.length ≤ limit) (line : Nat) :
    state.error ≠ some (StepError.stepLimitExceeded limit line).report := by
  cases h with
  | complete _ _ _ error => rw [error]; exact Option.some_ne_none _ |>.symm
  | failed stop _ _ _ report reason =>
    have hlt := (List.getElem?_eq_some_iff.1 stop).1
    rcases reason with ⟨hm, _⟩ | ⟨_, name, hcause⟩
    · rw [hlimit] at hm
      cases hm
      omega
    · rw [report]
      intro heq
      have hreport := Option.some.inj heq
      rw [hcause] at hreport
      exact StepError.report_constReassignment_ne _ _ _ _ hreport

/-- The schedule of a run. A program with the stops `e₀ < e₁ < …` runs for `m + 1` steps,
the first `m` of which succeed, one on each of the stops `e₀, …, e₍ₘ₋₁₎`. The last step either
completes the run, and then all stops are passed, or fails on `eₘ`. In every state, before
and after the end, the timeline has one entry for each step that succeeded. A limit is never
exceeded, and it is reported exactly when the run would exceed it. -/
theorem run_schedule (engine : Engine) (source : Text) :
    (Line.stops source).Pairwise (· < ·) ∧
    (∃ m ≤ (Line.stops source).length,
      (engine.load source).run =
        (List.range (m + 1)).map (fun i => advance^[i + 1] (engine.load source)) ∧
      (∀ i ≤ m, (advance^[i] (engine.load source)).state.status.isTerminal = false ∧
        (advance^[i] (engine.load source)).state.stepsTaken = i) ∧
      (∀ i < m, (Line.stops source)[i]? =
        some (advance^[i + 1] (engine.load source)).state.currentLine) ∧
      Ending engine.settings (Line.stops source) m
        (advance^[m + 1] (engine.load source)).state) ∧
    (∀ n, (advance^[n] (engine.load source)).state.timeline.entries.length =
        (advance^[n] (engine.load source)).state.stepsTaken ∧
      ∀ (i : Nat) (entry : Timeline.Entry),
        (advance^[n] (engine.load source)).state.timeline.entries[i]? = some entry →
          entry.timestamp = i ∧ (Line.stops source)[i]? = some entry.line) ∧
    ∀ limit, engine.settings.maxSteps = some limit →
      (∀ n, (advance^[n] (engine.load source)).state.stepsTaken ≤ limit) ∧
      ((Line.stops source).length ≤ limit → ∀ n line,
        (advance^[n] (engine.load source)).state.error ≠
          some (StepError.stepLimitExceeded limit line).report) := by
  have hstart := onSchedule_load engine source
  obtain ⟨m, hm, hlive, hended, hending⟩ := exists_ending hstart rfl rfl
  have hscheduled := onSchedule_iterate hstart
  have hcount : ∀ i ≤ m, (advance^[i] (engine.load source)).state.stepsTaken = i :=
    fun i hi => stepsTaken_iterate hstart rfl fun j hj => hlive j (Nat.le_trans hj hi)
  have hsettings : ∀ n, (advance^[n] (engine.load source)).settings = engine.settings :=
    fun n => (program_iterate (engine.load source) n).1
  rw [hsettings] at hending
  refine ⟨Line.pairwise_stops source, ⟨m, hm, ?_, ?_, ?_, hending⟩, ?_, ?_⟩
  · refine runFor_eq ?_ hlive hended
    exact Nat.lt_succ_of_le (Nat.le_trans hm (length_stops_le engine source))
  · exact fun i hi => ⟨hlive i hi, hcount i hi⟩
  · exact fun i hi => (hscheduled (i + 1)).current_eq (hlive _ hi) i (hcount _ hi)
  · exact fun n => ⟨(hscheduled n).length_eq, (hscheduled n).entry_eq⟩
  · intro limit hlimit
    refine ⟨fun n => (hscheduled n).within limit (hsettings n ▸ hlimit), ?_⟩
    intro hle n line
    rcases Nat.lt_or_ge m n with hn | hn
    · obtain ⟨k, rfl⟩ := Nat.exists_eq_add_of_le' hn
      rw [Function.iterate_add_apply, iterate_of_isTerminal hended]
      exact hending.error_ne hlimit hle line
    · rw [(hscheduled n).error_eq (hlive n hn)]
      exact Option.some_ne_none _ |>.symm

end Engine

end Stepwise
