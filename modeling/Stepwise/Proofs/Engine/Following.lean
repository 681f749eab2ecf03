import Stepwise.Proofs.Engine.Schedule
import Stepwise.Proofs.Loop.Trackers

/-!
# Trackers over a run

A tracker follows its variable from the step that opens it until it is deactivated. Over a
whole run its history is the number it was opened with, followed by the numbers that
declarations and assignments write to the variable while the tracker is active. Loop headers
write the variable too, without feeding the trackers; that the trackers still agree with the
environment is due to each header being met only once.

## Main definitions

* `Stepwise.Engine.executed?` — what the next step executes.
* `Stepwise.Engine.numberWritten?` — the number that the next step writes to a variable.
* `Stepwise.Engine.feeds?` — the number that the next step feeds to a tracker.

## Main results

* `Stepwise.Engine.numberOf?_of_numberWritten?` — what a step writes is there after the step.
* `Stepwise.Engine.Step.extends_tracker` — what a step adds to a tracker.
* `Stepwise.Engine.tracker_history` — what a tracker shows in any state of a run.
-/

namespace Stepwise

/-- The effect writes no variable by a declaration or an assignment. -/
def Effect.isQuiet : Effect → Bool
  | .assign .. => false
  | _ => true

namespace State

/-! ### What a line does to the variables and the trackers -/

/-- What executing a line makes of the variables and the trackers of a state. -/
inductive Change (state : State) (line : Line) : Effect → Environment → Loop.Table → Prop
  /-- Both stay. -/
  | keep {effect : Effect} (quiet : effect.isQuiet = true) :
      Change state line effect state.environment state.loops
  /-- A declaration or an assignment writes a variable and feeds its trackers. -/
  | write {name description : Text} {value : Value} {constant : Bool}
      (kind : line.kind = .declaration ∨ line.kind = .assignment) :
      Change state line (.assign name value constant description)
        (state.environment.set name value constant) (state.loops.feed name value)
  /-- A loop header opens a tracker. It may write its variable, and then with the number that
  it opens the tracker with. -/
  | enter {effect : Effect} {header : Effect.Header} {env : Environment}
      (quiet : effect.isQuiet = true)
      (number : ∀ x, env.numberOf? header.variableName = some x → header.current = x)
      (others : ∀ name, name ≠ header.variableName →
        env.numberOf? name = state.environment.numberOf? name) :
      Change state line effect env (state.loops.openHeader line.number header)

variable {state : State} {line : Line} {effect : Effect} {env : Environment}
  {table : Loop.Table} {tracker : Loop.Tracker} {i : Nat}

/-- Executing a line changes the variables and the trackers. -/
theorem change_after (does : line.Does state.environment effect) :
    state.Change line effect (state.after line.number effect).environment
      (state.after line.number effect).loops := by
  rw [after_loops, after_environment]
  cases does with
  | pass passive =>
    cases effect with
    | print | note => exact .keep rfl
    | assign | startLoop | meetLoop => cases passive
  | write kind => exact .write kind
  | @start header =>
    cases header with
    | none => exact .keep rfl
    | some header =>
      refine .enter rfl ?_ ?_
      · intro x hx
        have hself := Environment.numberOf?_set_self state.environment header.variableName
          (.number header.current) false
        exact Option.some.inj (hself.symm.trans hx)
      · exact fun name hne => Environment.numberOf?_set_of_ne _ _ _ hne
  | @meet header taken _ current =>
    cases header with
    | none => exact .keep rfl
    | some header =>
      refine .enter rfl ?_ fun _ _ => rfl
      intro x hx
      change state.environment.numberOf? header.variableName = some x at hx
      rw [current header rfl, hx]
      rfl

/-- A line keeps the trackers in agreement with the environment, unless a header is met
again. -/
theorem Change.agrees (h : state.Change line effect env table)
    (hagrees : state.loops.Agrees state.environment)
    (hnew : state.loops.hasHeader line.number = false) : table.Agrees env := by
  cases h with
  | keep => exact hagrees
  | write => exact hagrees.feed _ _ _
  | enter _ number others => exact hagrees.openHeader hnew number others

/-- A tracker after a line was opened there, or has the line of an earlier one. -/
theorem Change.line_of_mem (h : state.Change line effect env table)
    (hnew : state.loops.hasHeader line.number = false) (hmem : tracker ∈ table.trackers) :
    tracker.line = line.number ∨ ∃ before ∈ state.loops.trackers, tracker.line = before.line := by
  cases h with
  | keep => exact .inr ⟨tracker, hmem, rfl⟩
  | write =>
    obtain ⟨before, hbefore, hline, _⟩ := Loop.Table.mem_feed hmem
    exact .inr ⟨before, hbefore, hline⟩
  | enter =>
    rcases Loop.Table.mem_openHeader hnew hmem with ⟨_, _, hline⟩ | ⟨before, hbefore, hline, _⟩
    · exact .inl hline
    · exact .inr ⟨before, hbefore, hline⟩

/-- A tracker that was not there before a line is fresh. -/
theorem Change.isFresh (h : state.Change line effect env table)
    (htracker : table.trackers[i]? = some tracker) (hnone : state.loops.trackers[i]? = none) :
    state.loops.trackers.length = i ∧ tracker.IsFresh line.number := by
  cases h with
  | keep => rw [hnone] at htracker; cases htracker
  | write =>
    have hle := List.getElem?_eq_none_iff.1 hnone
    have hlt := (List.getElem?_eq_some_iff.1 htracker).1
    rw [Loop.Table.length_feed] at hlt
    omega
  | enter => exact Loop.Table.isFresh_of_openHeader htracker hnone

end State

namespace Engine

/-! ### Headers are met once -/

/-- The trackers were opened on stops that are passed, and agree with the environment. -/
structure Attentive (stops : List Nat) (engine : Engine) : Prop where
  /-- The lines of the trackers are stops that are passed. -/
  passed : ∀ tracker ∈ engine.state.loops.trackers,
    tracker.line ∈ stops.take engine.state.stepsTaken
  /-- Active trackers show the number of their variable. -/
  agrees : engine.state.loops.Agrees engine.state.environment

variable {engine next : Engine} {stops : List Nat} {line : Line} {index i : Nat}
  {tracker : Loop.Tracker}

/-- No tracker was opened on the next line. -/
theorem Attentive.hasHeader_eq_false (h : Attentive stops engine)
    (hscheduled : OnSchedule stops engine) (hsorted : stops.Pairwise (· < ·))
    (live : engine.state.status.isTerminal = false) (hnext : engine.next? = some (line, index)) :
    engine.state.loops.hasHeader line.number = false := by
  have hstop := hscheduled.getElem?_eq live hnext
  rw [Loop.Table.hasHeader, List.any_eq_false]
  intro tracker hmem heq
  rw [beq_iff_eq] at heq
  obtain ⟨j, hj, hline⟩ := List.mem_iff_getElem.1 (h.passed tracker hmem)
  obtain ⟨hlt, hget⟩ := List.getElem?_eq_some_iff.1 hstop
  rw [List.length_take, Nat.lt_min] at hj
  rw [List.getElem_take] at hline
  have := List.pairwise_iff_getElem.1 hsorted j engine.state.stepsTaken hj.2 hlt hj.1
  omega

/-- A step keeps the trackers in agreement with the environment. -/
theorem Step.attentive (hstep : engine.Step next) (h : Attentive stops engine)
    (hscheduled : OnSchedule stops engine) (hsorted : stops.Pairwise (· < ·)) :
    Attentive stops next := by
  cases hstep with
  | rest => exact h
  | finish =>
    refine ⟨?_, Loop.Table.agrees_deactivateAll _ _⟩
    intro tracker hmem
    obtain ⟨before, hbefore, rfl⟩ := List.mem_map.1 hmem
    exact h.passed before hbefore
  | @execute line index effect live hnext below runs =>
    -- Every stop is passed once, so the line has opened no tracker yet.
    have hnew := h.hasHeader_eq_false hscheduled hsorted live hnext
    have hchange := State.change_after (Line.does_of_effect runs)
    refine ⟨?_, hchange.agrees h.agrees hnew⟩
    intro tracker hmem
    rw [moveTo_state, State.after_stepsTaken, List.take_add_one,
      hscheduled.getElem?_eq live hnext, List.mem_append]
    rcases hchange.line_of_mem hnew hmem with hline | ⟨before, hbefore, hline⟩
    · exact .inr (by simp [hline])
    · exact .inl (hline ▸ h.passed before hbefore)
  | fail => exact ⟨h.passed, h.agrees⟩

theorem attentive_iterate (engine : Engine) (source : Text) (n : Nat) :
    Attentive (Line.stops source) (advance^[n] (engine.load source)) := by
  induction n with
  | zero => exact ⟨nofun, nofun⟩
  | succ n ih =>
    rw [Function.iterate_succ_apply']
    exact (step_advance _).attentive ih (onSchedule_iterate (onSchedule_load engine source) n)
      (Line.pairwise_stops source)

/-! ### What a step feeds -/

/-- The line that the next step executes, with its effect. A step that completes the run or
fails executes none. -/
def executed? (engine : Engine) : Option (Line × Effect) :=
  if engine.state.status.isTerminal then none
  else match engine.next? with
    | none => none
    | some (line, _) =>
      if engine.settings.maxSteps.any fun limit => limit ≤ engine.state.stepsTaken then none
      else match line.effect engine.state.environment with
        | .ok effect => some (line, effect)
        | .error _ => none

/-- The number that the next step writes to a variable: there is one if the step executes a
declaration or an assignment that writes a number to it. -/
def numberWritten? (engine : Engine) (name : Text) : Option Float :=
  match engine.executed? with
  | some (line, .assign target value _ _) =>
    if (line.kind = .declaration ∨ line.kind = .assignment) ∧ target = name then value.number?
    else none
  | _ => none

/-- The number that the next step feeds to the tracker with the given place: what it writes
to the variable of the tracker, as long as the tracker is active. -/
def feeds? (engine : Engine) (i : Nat) : Option Float :=
  engine.state.loops.trackers[i]?.bind fun tracker =>
    if tracker.active then engine.numberWritten? tracker.variableName else none

theorem any_limit_eq_false {settings : EngineSettings} {state : State}
    (below : ∀ limit ∈ settings.maxSteps, state.stepsTaken < limit) :
    (settings.maxSteps.any fun limit => decide (limit ≤ state.stepsTaken)) = false := by
  cases hmax : settings.maxSteps with
  | none => rfl
  | some limit =>
    have := below limit hmax
    simpa using this

theorem executed?_of_effect {effect : Effect} (live : engine.state.status.isTerminal = false)
    (hnext : engine.next? = some (line, index))
    (below : ∀ limit ∈ engine.settings.maxSteps, engine.state.stepsTaken < limit)
    (runs : line.effect engine.state.environment = .ok effect) :
    engine.executed? = some (line, effect) := by
  simp [executed?, live, hnext, any_limit_eq_false below, runs]

theorem executed?_of_refuses {cause : StepError} (live : engine.state.status.isTerminal = false)
    (hnext : engine.next? = some (line, index))
    (refused : engine.state.Refuses engine.settings line cause) : engine.executed? = none := by
  cases refused with
  | limit bounded reached => simp [executed?, live, hnext, bounded, reached]
  | constant below _ _ fails =>
    simp [executed?, live, hnext, any_limit_eq_false below, fails]

/-- The number that a step writes to a variable is the number that the variable has after
the step. -/
theorem numberOf?_of_numberWritten? {name : Text} {x : Float}
    (h : engine.numberWritten? name = some x) :
    engine.advance.state.environment.numberOf? name = some x := by
  have hnothing : engine.executed? ≠ none := by
    intro hnone
    rw [numberWritten?, hnone] at h
    cases h
  have hstep := step_advance engine
  generalize engine.advance = next at hstep
  cases hstep with
  | rest ended => exact absurd (by simp [executed?, ended]) hnothing
  | finish live done => exact absurd (by simp [executed?, live, done]) hnothing
  | fail live hnext refused =>
    exact absurd (executed?_of_refuses live hnext refused) hnothing
  | @execute line index effect live hnext below runs =>
    rw [numberWritten?, executed?_of_effect live hnext below runs] at h
    cases effect with
    | assign target value constant description =>
      simp only at h
      split at h
      · rename_i hwrites
        change (engine.state.environment.set target value constant).numberOf? name = some x
        rw [← hwrites.2, Environment.numberOf?_set_self, h]
      · cases h
    | startLoop | meetLoop | print | note => cases h

theorem feeds?_of_executed?_eq_none (h : engine.executed? = none) : engine.feeds? i = none := by
  have hwritten : ∀ name, engine.numberWritten? name = none := by
    intro name
    rw [numberWritten?, h]
  simp [feeds?, hwritten]

/-- A step that writes no variable by a declaration or an assignment feeds no tracker. -/
theorem feeds?_of_isQuiet {effect : Effect} (h : engine.executed? = some (line, effect))
    (quiet : effect.isQuiet = true) : engine.feeds? i = none := by
  have hwritten : ∀ name, engine.numberWritten? name = none := by
    intro name
    unfold numberWritten?
    split
    · rename_i heq
      rw [h] at heq
      cases heq
      cases quiet
    · rfl
  simp [feeds?, hwritten]

/-- A declaration or an assignment feeds what it writes. -/
theorem feeds?_of_assign {name description : Text} {value : Value} {constant : Bool}
    (h : engine.executed? = some (line, .assign name value constant description))
    (hkind : line.kind = .declaration ∨ line.kind = .assignment)
    (htracker : engine.state.loops.trackers[i]? = some tracker) :
    (engine.feeds? i).toList = Loop.Table.fed tracker name value := by
  rw [feeds?, htracker, Option.bind_some, Loop.Table.fed]
  simp only [numberWritten?, h, hkind, true_and]
  cases hactive : tracker.active with
  | false => simp [Loop.Tracker.follows, hactive]
  | true =>
    by_cases hname : name = tracker.variableName
    · simp [Loop.Tracker.follows, hactive, hname]
    · have hname' : ¬ tracker.variableName = name := fun heq => hname heq.symm
      simp [Loop.Tracker.follows, hname, hname']

/-- A line adds to each tracker what the step feeds to it. -/
theorem extends_of_change {effect : Effect} {env : Environment} {table : Loop.Table}
    (h : engine.executed? = some (line, effect))
    (hchange : engine.state.Change line effect env table)
    (htracker : engine.state.loops.trackers[i]? = some tracker) :
    ∃ later, table.trackers[i]? = some later ∧
      tracker.Extends (engine.feeds? i).toList later := by
  cases hchange with
  | keep quiet =>
    rw [feeds?_of_isQuiet h quiet]
    exact ⟨tracker, htracker, .refl tracker⟩
  | write kind =>
    rw [feeds?_of_assign h kind htracker]
    exact Loop.Table.extends_feed htracker _ _
  | enter quiet =>
    rw [feeds?_of_isQuiet h quiet]
    exact Loop.Table.extends_openHeader htracker _ _

/-! ### Steps -/

/-- A step adds to each tracker what it feeds to it. -/
theorem Step.extends_tracker (hstep : engine.Step next)
    (h : engine.state.loops.trackers[i]? = some tracker) :
    ∃ later, next.state.loops.trackers[i]? = some later ∧
      tracker.Extends (engine.feeds? i).toList later := by
  cases hstep with
  | rest ended =>
    rw [feeds?_of_executed?_eq_none (by simp [executed?, ended])]
    exact ⟨tracker, h, .refl tracker⟩
  | finish live done =>
    rw [feeds?_of_executed?_eq_none (by simp [executed?, live, done])]
    exact Loop.Table.extends_deactivateAll h
  | execute live hnext below runs =>
    exact extends_of_change (executed?_of_effect live hnext below runs)
      (State.change_after (Line.does_of_effect runs)) h
  | fail live hnext refused =>
    rw [feeds?_of_executed?_eq_none (executed?_of_refuses live hnext refused)]
    exact ⟨tracker, h, .refl tracker⟩

/-- A tracker that was not there before a step was opened by it, on its line. -/
theorem Step.isFresh (hstep : engine.Step next)
    (h : next.state.loops.trackers[i]? = some tracker)
    (hnone : engine.state.loops.trackers[i]? = none) :
    engine.state.loops.trackers.length = i ∧ tracker.IsFresh next.state.currentLine := by
  cases hstep with
  | rest | fail => exact absurd (hnone.symm.trans h) nofun
  | finish =>
    have hle := List.getElem?_eq_none_iff.1 hnone
    have hlt := (List.getElem?_eq_some_iff.1 h).1
    change i < engine.state.loops.deactivateAll.trackers.length at hlt
    rw [Loop.Table.length_deactivateAll] at hlt
    omega
  | execute _ _ _ runs =>
    exact (State.change_after (Line.does_of_effect runs)).isFresh h hnone

/-! ### Runs -/

/-- The numbers that are fed to a tracker in the steps from `first` on, `count` in all. -/
def fedNumbers (start : Engine) (i first count : Nat) : List Float :=
  (List.range' first count).filterMap fun j => (advance^[j] start).feeds? i

/-- The steps from a state on add to a tracker what they feed to it. -/
theorem extends_iterate {start : Engine} {first : Nat}
    (h : (advance^[first] start).state.loops.trackers[i]? = some tracker) (count : Nat) :
    ∃ later, (advance^[first + count] start).state.loops.trackers[i]? = some later ∧
      tracker.Extends (fedNumbers start i first count) later := by
  induction count with
  | zero => exact ⟨tracker, h, .refl tracker⟩
  | succ count ih =>
    obtain ⟨later, hlater, hextends⟩ := ih
    rw [← Nat.add_assoc, Function.iterate_succ_apply']
    obtain ⟨last, hlast, hstep⟩ := (step_advance _).extends_tracker hlater
    refine ⟨last, hlast, ?_⟩
    have hfed : fedNumbers start i first (count + 1) = fedNumbers start i first count ++
        ((advance^[first + count] start).feeds? i).toList := by
      rw [fedNumbers, List.range'_concat, List.filterMap_append, Nat.one_mul, fedNumbers]
      congr 1
    rw [hfed]
    exact hextends.trans hstep

/-- Every tracker of a run was opened by one of its steps. -/
theorem exists_opening (engine : Engine) (source : Text) {n : Nat}
    (h : (advance^[n] (engine.load source)).state.loops.trackers[i]? = some tracker) :
    ∃ o < n, ∃ opened,
      (advance^[o] (engine.load source)).state.loops.trackers.length = i ∧
      (advance^[o + 1] (engine.load source)).state.loops.trackers[i]? = some opened ∧
      opened.IsFresh (advance^[o + 1] (engine.load source)).state.currentLine := by
  induction n generalizing tracker with
  | zero => cases h
  | succ n ih =>
    cases hbefore : (advance^[n] (engine.load source)).state.loops.trackers[i]? with
    | some before =>
      obtain ⟨o, ho, hopening⟩ := ih hbefore
      exact ⟨o, Nat.lt_succ_of_lt ho, hopening⟩
    | none =>
      have hstep := step_advance (advance^[n] (engine.load source))
      rw [← Function.iterate_succ_apply' advance n] at hstep
      obtain ⟨hlength, hfresh⟩ := hstep.isFresh h hbefore
      exact ⟨n, Nat.lt_succ_self n, tracker, hlength, h, hfresh⟩

/-- What a tracker shows in any state of a run. Its history is the number that it was opened
with, followed in order by every number that a declaration or an assignment has written to its
variable since then while it was active; its current number is the last of the history. Its
variable, its bound and its line stay the same in all later states. As long as it is active,
its current number is the number that its variable has, if the variable has one. -/
theorem tracker_history (engine : Engine) (source : Text) (n i : Nat) (tracker : Loop.Tracker)
    (h : (advance^[n] (engine.load source)).state.loops.trackers[i]? = some tracker) :
    (∃ o < n, ∃ opened,
      (advance^[o] (engine.load source)).state.loops.trackers.length = i ∧
      (advance^[o + 1] (engine.load source)).state.loops.trackers[i]? = some opened ∧
      opened.IsFresh (advance^[o + 1] (engine.load source)).state.currentLine ∧
      tracker.history = opened.current ::
        (List.range' (o + 1) (n - (o + 1))).filterMap fun j =>
          (advance^[j] (engine.load source)).feeds? i) ∧
    tracker.history.getLast? = some tracker.current ∧
    (∀ m ≥ n, ∃ later,
      (advance^[m] (engine.load source)).state.loops.trackers[i]? = some later ∧
      later.variableName = tracker.variableName ∧ later.bound = tracker.bound ∧
      later.line = tracker.line) ∧
    (tracker.active = true → ∀ x,
      (advance^[n] (engine.load source)).state.environment.numberOf? tracker.variableName =
        some x → tracker.current = x) := by
  obtain ⟨o, ho, opened, hlength, hopened, hfresh⟩ := exists_opening engine source h
  -- From its opening on, the tracker grows by what the steps feed to it.
  obtain ⟨later, hlater, hextends⟩ := extends_iterate hopened (n - (o + 1))
  rw [Nat.add_sub_of_le ho, h] at hlater
  cases hlater
  refine ⟨⟨o, ho, opened, hlength, hopened, hfresh, ?_⟩, ?_, ?_, ?_⟩
  · rw [hextends.history_eq, hfresh.history_eq]
    rfl
  · refine hextends.getLast?_history ?_
    rw [hfresh.history_eq]
    rfl
  · intro m hm
    obtain ⟨later, hlater, hlater'⟩ := extends_iterate h (m - n)
    rw [Nat.add_sub_of_le hm] at hlater
    exact ⟨later, hlater, hlater'.variableName_eq, hlater'.bound_eq, hlater'.line_eq⟩
  · have hmem := List.mem_of_getElem? h
    exact (attentive_iterate engine source n).agrees tracker hmem

/-- A counting loop whose variable is incremented once. -/
theorem tracker_history_counting :
    let start := (new {}).load "for (let i = 0; i < 3; i = i + 1)\ni = i + 1".toList
    ∃ tracker, (advance^[2] start).state.loops.trackers[0]? = some tracker ∧
      tracker.history = [0.0, 1.0] ∧ tracker.history.getLast? = some tracker.current := by
  intro start
  have hhistory : (advance^[2] start).state.loops.trackers[0]?.map Loop.Tracker.history =
      some [0.0, 1.0] := by decide +kernel
  obtain ⟨tracker, htracker, hnumbers⟩ := Option.map_eq_some_iff.1 hhistory
  exact ⟨tracker, htracker, hnumbers, (tracker_history (new {}) _ 2 0 tracker htracker).2.1⟩

end Engine

end Stepwise
