import Stepwise.Proofs.Engine.Step

/-!
# Starting anew

Loading a program and resetting the run clear every part of an engine that calls can change.
What is left is the settings, which no call changes, and the program, which only loading
changes. So an engine that is loaded or reset after any calls whatever is one that has never
been used before.

## Main definitions

* `Stepwise.Engine.Call` — what can be asked of an engine.
* `Stepwise.Engine.serve` — an engine after a sequence of calls, and the snapshots that the
  calls gave back.
* `Stepwise.Engine.Call.loaded?` — the text that a sequence of calls leaves loaded.
* `Stepwise.Engine.Holds` — the invariant that ties the settings and the program of an engine
  to the calls.

## Main results

* `Stepwise.Engine.Holds.answer`, `Stepwise.Engine.Holds.serve` — what one call and what any
  calls leave of the settings and the program.
* `Stepwise.Engine.Holds.reset_eq`, `Stepwise.Engine.Holds.load_eq` — what starting anew makes of
  an engine.
* `Stepwise.Engine.restart_forgets` — starting anew forgets all calls.
-/

namespace Stepwise.Engine

/-! ### Calls -/

/-- What can be asked of an engine. -/
inductive Call where
  | load (source : Text)
  | reset
  | advance
  /-- Asks for the current state. -/
  | look
  deriving DecidableEq, Repr

/-- The engine after a call, and the snapshot that the call gives back, if it gives one. -/
def answer (engine : Engine) : Call → Engine × Option Snapshot
  | .load source => (engine.load source, none)
  | .reset => (engine.reset, none)
  | .advance => (engine.advance, some engine.advance.last)
  | .look => (engine, some engine.current)

/-- The engine after a sequence of calls, and the snapshots that they gave back, in order. -/
def serve : Engine → List Call → Engine × List Snapshot
  | engine, [] => (engine, [])
  | engine, call :: calls =>
    let (next, shown) := engine.answer call
    let (last, others) := next.serve calls
    (last, shown.toList ++ others)

namespace Call

/-- The text that a call loads. -/
def source? : Call → Option Text
  | .load source => some source
  | _ => none

/-- The text that a sequence of calls leaves loaded: the one loaded last. -/
def loaded? (calls : List Call) : Option Text :=
  (calls.filterMap source?).getLast?

theorem loaded?_cons (call : Call) (calls : List Call) :
    loaded? (call :: calls) = (loaded? calls).or call.source? := by
  unfold loaded?
  cases hsource : call.source? with
  | none => rw [List.filterMap_cons_none hsource, Option.or_none]
  | some source =>
    rw [List.filterMap_cons_some hsource, List.getLast?_cons]
    cases (calls.filterMap source?).getLast? <;> rfl

end Call

/-! ### Settings and programs -/

/-- The engine that has just been made with the given settings, and in which at most the given
text has been loaded. -/
def fresh (settings : EngineSettings) : Option Text → Engine
  | some text => (new settings).load text
  | none => new settings

/-- The engine has the given settings and holds the program of the given text, or none. -/
structure Holds (settings : EngineSettings) (text : Option Text) (engine : Engine) : Prop where
  settings_eq : engine.settings = settings
  source_eq : engine.source = text.getD []
  lines_eq : engine.lines = text.elim [] Line.program

variable {settings : EngineSettings} {text : Option Text} {engine : Engine}

theorem holds_new (settings : EngineSettings) : Holds settings none (new settings) :=
  ⟨rfl, rfl, rfl⟩

/-- Loading replaces the program and keeps the settings. -/
theorem Holds.load (h : Holds settings text engine) (source : Text) :
    Holds settings (some source) (engine.load source) :=
  ⟨h.settings_eq, rfl, rfl⟩

theorem Holds.iterate (h : Holds settings text engine) (n : Nat) :
    Holds settings text (Engine.advance^[n] engine) := by
  obtain ⟨hsettings, hsource, hlines⟩ := program_iterate engine n
  exact ⟨hsettings.trans h.settings_eq, hsource.trans h.source_eq, hlines.trans h.lines_eq⟩

/-- No call changes the settings, and only loading changes the program. -/
theorem Holds.answer (h : Holds settings text engine) (call : Call) :
    Holds settings (call.source?.or text) (engine.answer call).1 := by
  cases call with
  | load source => exact h.load source
  | reset => exact ⟨h.settings_eq, h.source_eq, h.lines_eq⟩
  | advance => exact h.iterate 1
  | look => exact h

/-- Any calls keep the settings and leave the program that was loaded last. -/
theorem Holds.serve (h : Holds settings text engine) (calls : List Call) :
    Holds settings ((Call.loaded? calls).or text) (engine.serve calls).1 := by
  induction calls generalizing engine text with
  | nil => exact h
  | cons call calls ih =>
    rw [Call.loaded?_cons, Option.or_assoc]
    exact ih (h.answer call)

/-! ### Starting anew -/

/-- A reset leaves nothing but the settings and the program. -/
theorem Holds.reset_eq (h : Holds settings text engine) : engine.reset = fresh settings text := by
  obtain ⟨settings', source, lines, cursor, state, last⟩ := engine
  obtain ⟨rfl, rfl, rfl⟩ := h
  cases text <;> rfl

/-- Loading leaves nothing but the settings. -/
theorem Holds.load_eq (h : Holds settings text engine) (source : Text) :
    engine.load source = (new settings).load source := by
  rw [← h.settings_eq]
  rfl

theorem reset_iterate (engine : Engine) (source : Text) (n : Nat) :
    (advance^[n] (engine.load source)).reset = engine.load source := by
  have hloaded : Holds engine.settings (some source) (engine.load source) := ⟨rfl, rfl, rfl⟩
  exact (hloaded.iterate n).reset_eq

/-- Starting anew forgets all calls. After any calls on a new engine, loading a text gives the
engine that loading it in a new one gives, and a reset gives the new engine with the text that
is loaded, if there is one. So from then on all calls give the same snapshots and leave the
same engine, however often the program is loaded again or, as long as no other one is loaded,
reset. -/
theorem restart_forgets (settings : EngineSettings) (calls : List Call) (source : Text) :
    let engine := ((new settings).serve calls).1
    let loaded := Call.loaded? calls
    engine.load source = (new settings).load source ∧
      engine.source = loaded.getD [] ∧
      engine.reset =
        (match loaded with
          | some text => (new settings).load text
          | none => new settings) ∧
      ∀ between later : List Call,
        let replayed := ((engine.load source).serve between).1
        (replayed.load source).serve later = (engine.load source).serve later ∧
          (Call.loaded? between = none →
            replayed.reset.serve later = (engine.load source).serve later) := by
  intro engine loaded
  have hengine : Holds settings loaded engine := by
    have h := (holds_new settings).serve calls
    rwa [Option.or_none] at h
  refine ⟨hengine.load_eq source, hengine.source_eq, hengine.reset_eq, ?_⟩
  intro between later replayed
  have hreplayed : Holds settings ((Call.loaded? between).or (some source)) replayed :=
    (hengine.load source).serve between
  constructor
  · rw [hreplayed.load_eq, hengine.load_eq]
  · intro hnone
    rw [hnone, Option.none_or] at hreplayed
    rw [hreplayed.reset_eq, hengine.load_eq]
    rfl

end Stepwise.Engine
