import Mathlib.Tactic.IntervalCases
import Mathlib.Tactic.SplitIfs
import Stepwise.Player.View
import Stepwise.Proofs.Engine.Coherence
import Stepwise.Proofs.Engine.Restart

/-!
# Playback

A player keeps three things that belong together: the engine, the snapshot that it shows and
whether it plays on by itself. Keys, the clock and drawing change them in any order. This file
shows that they never come apart: the engine is always the loaded program after as many steps
as were taken since the last reset, the snapshot is the one of the last step, and only a run
that goes on is played.

## Main definitions

* `Stepwise.Player.Action`, `Stepwise.Player.act`, `Stepwise.Player.play` — what can happen to a
  player, and what it makes of the player.
* `Stepwise.Player.Key.command`, `Stepwise.Player.Obeys` — what a key asks of the engine, and what
  the player makes of it.
* `Stepwise.Player.stepsSinceReset` — how many steps are taken after the last reset.
* `Stepwise.Player.InPlay` — the invariant of players.

## Main results

* `Stepwise.Player.obeys_press` — what a key does to the engine.
* `Stepwise.Player.InPlay.act`, `Stepwise.Player.InPlay.play` — an action keeps the invariant, and
  so does any sequence of actions.
* `Stepwise.Player.playback` — what holds of a player whatever happens to it.
-/

namespace Stepwise

namespace Player

open Engine (advance)

/-! ### Actions -/

/-- What can happen to a player. -/
inductive Action where
  /-- An event is handled, at a given time. -/
  | handle (now : Nat) (event : Event)
  /-- The clock shows a given time. -/
  | tick (now : Nat)
  /-- The player is drawn on a screen of a given size. -/
  | draw (width height : Nat)
  deriving DecidableEq, Repr

/-- The player after an action. -/
def act (player : Player) : Action → Player
  | .handle now event => player.handle now event
  | .tick now => player.tick now
  | .draw width height => player.settle width height

/-- The player after a sequence of actions. -/
def play (player : Player) (actions : List Action) : Player :=
  actions.foldl act player

/-- What a key asks of the engine. -/
inductive Command where
  | step
  /-- So many steps at once. -/
  | burst (n : Nat)
  | reset
  /-- Playing starts or stops. -/
  | toggle
  | nothing
  deriving DecidableEq, Repr

/-- What a key asks of the engine. -/
def Key.command : Key → Command
  | .right => .step
  | .char c =>
    if '1' ≤ c && c ≤ '9' then .burst (c.toNat - '0'.toNat)
    else if c = 'n' then .step
    else if c = 'r' || c = 'R' then .reset
    else if c = ' ' then .toggle
    else .nothing
  | _ => .nothing

/-- The action is a key that resets the run. -/
def Action.resets : Action → Bool
  | .handle _ (.press key) => key.command = .reset
  | _ => false

/-- How many steps a command takes. A burst takes none after the end of the run, while a single
step is taken even then. -/
def stepsFor (player : Player) : Command → Nat
  | .step => 1
  | .burst n => (stepMany n { player with playing := false }).1
  | .reset | .toggle | .nothing => 0

/-- How many steps an action takes. -/
def stepsOf (player : Player) : Action → Nat
  | .handle _ (.press key) => player.stepsFor key.command
  | .tick now => if player.playing && player.interval ≤ now - player.lastPlay then 1 else 0
  | _ => 0

/-- How many steps a sequence of actions takes after its last reset; without a reset, they come
on top of the steps taken before. -/
def stepsSinceReset (player : Player) (before : Nat) : List Action → Nat
  | [] => before
  | action :: actions =>
    (player.act action).stepsSinceReset
      (if action.resets then 0 else before + player.stepsOf action) actions

/-! ### Keys -/

variable {player : Player}

/-- What a player makes of a command, at a given time. -/
inductive Obeys (player : Player) (now : Nat) : Command → Player → Prop
  /-- Playing stops, and a step is taken. -/
  | step : Obeys player now .step ({ player with playing := false }).stepForward
  /-- Playing stops, and steps are taken up to the end of the run. -/
  | burst (n : Nat) : Obeys player now (.burst n) (player.pressDigit n)
  | reset : Obeys player now .reset player.reset
  /-- Playing starts or stops. -/
  | toggle : Obeys player now .toggle (player.pressSpace now)
  /-- The engine, what is shown of it and whether it is played stay as they are. -/
  | nothing {next : Player} (engine : next.engine = player.engine)
      (snapshot : next.snapshot = player.snapshot) (playing : next.playing = player.playing) :
      Obeys player now .nothing next

/-- A key makes a player obey its command. -/
theorem obeys_press (player : Player) (now : Nat) (key : Key) :
    player.Obeys now key.command (player.press now key) := by
  cases key with
  | right => exact .step
  | left | enter | tab | up | down | other => exact .nothing rfl rfl rfl
  | char c =>
    by_cases hquit : (c = 'q' || c = 'Q') = true
    · have hnothing : (Key.char c).command = .nothing := by
        rw [Bool.or_eq_true, decide_eq_true_eq, decide_eq_true_eq] at hquit
        rcases hquit with rfl | rfl <;> rfl
      have hpress : player.press now (.char c) = { player with quitting := true } := if_pos hquit
      rw [hnothing, hpress]
      exact .nothing rfl rfl rfl
    · -- With the keys that quit out of the way, both sides ask the same questions.
      unfold Key.command press
      dsimp only
      rw [if_neg hquit]
      split_ifs
      · exact .burst _
      · exact .step
      · exact .reset
      · exact .toggle
      · exact .nothing rfl rfl rfl

theorem command_digitChar {digit : Nat} (hpos : 1 ≤ digit) (hle : digit ≤ 9) :
    (Key.char digit.digitChar).command = .burst digit := by
  interval_cases digit <;> rfl

/-! ### Taking steps -/

/-- Many steps advance the engine as often as they say. -/
theorem engine_stepMany (n : Nat) (player : Player) :
    (stepMany n player).2.engine = advance^[(stepMany n player).1] player.engine := by
  induction n generalizing player with
  | zero => rfl
  | succ n ih =>
    unfold stepMany
    split
    · rfl
    · exact ih player.stepForward

/-- Steps that are not taken because the run has ended would not change the engine. -/
theorem engine_stepMany_eq_iterate (n : Nat) (player : Player) :
    (stepMany n player).2.engine = advance^[n] player.engine := by
  induction n generalizing player with
  | zero => rfl
  | succ n ih =>
    unfold stepMany
    split
    · rename_i hended
      exact (Engine.iterate_of_isTerminal hended (n + 1)).symm
    · exact ih player.stepForward

/-- After many steps, the snapshot is still that of the last step. -/
theorem snapshot_stepMany (n : Nat) (h : player.snapshot = player.engine.last) :
    (stepMany n player).2.snapshot = (stepMany n player).2.engine.last := by
  induction n generalizing player with
  | zero => exact h
  | succ n ih =>
    unfold stepMany
    split
    · exact h
    · apply ih
      rfl

theorem playing_stepMany (n : Nat) (player : Player) :
    (stepMany n player).2.playing = player.playing := by
  induction n generalizing player with
  | zero => rfl
  | succ n ih =>
    unfold stepMany
    split
    · rfl
    · exact ih player.stepForward

/-! ### The invariant -/

/-- The player of a loaded program that has taken a number of steps since the last reset. -/
structure InPlay (base : Engine) (source : Text) (count : Nat) (player : Player) : Prop where
  /-- The engine has taken these steps. -/
  engine_eq : player.engine = advance^[count] (base.load source)
  /-- The snapshot is that of the last step. -/
  snapshot_eq : player.snapshot = player.engine.last
  /-- Only a run that goes on is played. -/
  live : player.playing = true → player.engine.status.isTerminal = false

variable {base : Engine} {source : Text} {count : Nat}

theorem inPlay_new (base : Engine) (source : Text) (interval now : Nat) :
    InPlay base source 0 (new (base.load source) interval now) where
  engine_eq := rfl
  snapshot_eq := rfl
  live := nofun

theorem InPlay.pause (h : InPlay base source count player) :
    InPlay base source count { player with playing := false } :=
  ⟨h.engine_eq, h.snapshot_eq, nofun⟩

/-- A step of a player that does not play. -/
theorem InPlay.stepForward (h : InPlay base source count player)
    (stopped : player.playing = false) : InPlay base source (count + 1) player.stepForward where
  engine_eq := by
    rw [Function.iterate_succ_apply', ← h.engine_eq]
    rfl
  snapshot_eq := rfl
  live := by
    intro hplaying
    change player.playing = true at hplaying
    rw [stopped] at hplaying
    cases hplaying

/-- A digit takes its steps. -/
theorem InPlay.pressDigit (h : InPlay base source count player) (n : Nat) :
    InPlay base source (count + (stepMany n { player with playing := false }).1)
      (player.pressDigit n) := by
  have hfinal : InPlay base source (count + (stepMany n { player with playing := false }).1)
      (stepMany n { player with playing := false }).2 := by
    refine ⟨?_, snapshot_stepMany n h.snapshot_eq, ?_⟩
    · rw [engine_stepMany, Nat.add_comm, Function.iterate_add_apply, ← h.engine_eq]
    · rw [playing_stepMany]
      nofun
  unfold Player.pressDigit
  dsimp only
  split
  · exact hfinal
  · exact ⟨hfinal.engine_eq, hfinal.snapshot_eq, hfinal.live⟩

/-- A reset leads back to the loaded program. -/
theorem InPlay.reset (h : InPlay base source count player) :
    InPlay base source 0 player.reset := by
  have hengine : player.engine.reset = base.load source := by
    rw [h.engine_eq, Engine.reset_iterate]
  refine ⟨hengine, ?_, nofun⟩
  change player.engine.reset.current = player.engine.reset.last
  rw [hengine]
  rfl

/-- The space key starts playing only while the run goes on. -/
theorem InPlay.pressSpace (h : InPlay base source count player) (now : Nat) :
    InPlay base source count (player.pressSpace now) := by
  unfold Player.pressSpace togglePlay
  split
  · exact h
  · split
    · exact ⟨h.engine_eq, h.snapshot_eq, nofun⟩
    · split
      · exact ⟨h.engine_eq, h.snapshot_eq, h.live⟩
      · rename_i hlive
        exact ⟨h.engine_eq, h.snapshot_eq, fun _ => Bool.eq_false_iff.2 hlive⟩

/-- A command takes its steps or resets the run. -/
theorem InPlay.obeys (h : InPlay base source count player) {now : Nat} {command : Command}
    {next : Player} (hobeys : player.Obeys now command next) :
    InPlay base source (if command = .reset then 0 else count + player.stepsFor command) next := by
  cases hobeys with
  | step => exact h.pause.stepForward rfl
  | burst n => exact h.pressDigit n
  | reset => exact h.reset
  | toggle => exact h.pressSpace now
  | nothing hengine hsnapshot hplaying =>
    refine ⟨hengine.trans h.engine_eq, ?_, ?_⟩
    · rw [hsnapshot, hengine]
      exact h.snapshot_eq
    · rw [hplaying, hengine]
      exact h.live

/-- The clock takes a step if one is due, and stops playing at the end of the run. -/
theorem InPlay.tick (h : InPlay base source count player) (now : Nat) :
    InPlay base source
      (count + if player.playing && player.interval ≤ now - player.lastPlay then 1 else 0)
      (player.tick now) := by
  unfold Player.tick
  split
  · refine ⟨?_, rfl, ?_⟩
    · change player.engine.advance = advance^[count + 1] (base.load source)
      rw [Function.iterate_succ_apply', ← h.engine_eq]
    · intro hplaying
      exact Bool.eq_false_of_not_eq_true' hplaying
  · exact h

/-- An action takes its steps or resets the run. -/
theorem InPlay.act (h : InPlay base source count player) (action : Action) :
    InPlay base source (if action.resets then 0 else count + player.stepsOf action)
      (player.act action) := by
  cases action with
  | handle now event =>
    cases event with
    | press key =>
      simp only [Action.resets, decide_eq_true_eq]
      exact h.obeys (obeys_press player now key)
    | ignored => exact h
  | tick now => exact h.tick now
  | draw width height => exact ⟨h.engine_eq, h.snapshot_eq, h.live⟩

/-- The invariant holds after any sequence of actions. -/
theorem InPlay.play (h : InPlay base source count player) (actions : List Action) :
    InPlay base source (player.stepsSinceReset count actions) (player.play actions) := by
  induction actions generalizing player count with
  | nil => exact h
  | cons action actions ih => exact ih (h.act action)

/-! ### Steps at once and one by one -/

theorem engine_play_steps (times : List Nat) (player : Player) :
    (player.play (times.map fun time => .handle time (.press (.char 'n')))).engine =
      advance^[times.length] player.engine := by
  induction times generalizing player with
  | nil => rfl
  | cons time times ih => exact ih _

/-- A digit advances the engine as often as it says. -/
theorem engine_press_digit {digit : Nat} (hpos : 1 ≤ digit) (hle : digit ≤ 9) (now : Nat)
    (player : Player) :
    (player.press now (.char digit.digitChar)).engine = advance^[digit] player.engine := by
  have hobeys := obeys_press player now (.char digit.digitChar)
  rw [command_digitChar hpos hle] at hobeys
  have hengine : (player.pressDigit digit).engine =
      (stepMany digit { player with playing := false }).2.engine := by
    unfold Player.pressDigit
    dsimp only
    split <;> rfl
  generalize player.press now (.char digit.digitChar) = next at hobeys ⊢
  cases hobeys
  rw [hengine, engine_stepMany_eq_iterate]

/-- What holds of a player of a loaded program, whatever happens to it. The snapshot is that of
the last step, and it is a view of the engine as it is now, up to the marks of change. If the
player plays, the run goes on. The engine is the loaded one after as many steps as were taken
since the last reset key. So a digit leaves the same engine and the same snapshot as pressing
`n` that many times, at whatever times. -/
theorem playback (base : Engine) (source : Text) (interval now : Nat) (actions : List Action) :
    let start := new (base.load source) interval now
    let player := start.play actions
    player.snapshot = player.engine.last ∧
      player.snapshot.unmarked = player.engine.current ∧
      (player.playing = true → player.engine.status.isTerminal = false) ∧
      player.engine = advance^[start.stepsSinceReset 0 actions] (base.load source) ∧
      ∀ (digit time : Nat) (times : List Nat), 1 ≤ digit → digit ≤ 9 → times.length = digit →
        let burst := player.act (.handle time (.press (.char digit.digitChar)))
        let singly := player.play (times.map fun time => .handle time (.press (.char 'n')))
        burst.engine = singly.engine ∧ burst.snapshot = singly.snapshot := by
  intro start player
  have hplay : InPlay base source (start.stepsSinceReset 0 actions) player :=
    (inPlay_new base source interval now).play actions
  refine ⟨hplay.snapshot_eq, ?_, hplay.live, hplay.engine_eq, ?_⟩
  · have hreachable : player.engine.Reachable := by
      rw [hplay.engine_eq]
      exact Engine.reachable_iterate (Engine.reachable_load base source) _
    rw [hplay.snapshot_eq]
    exact hreachable.unmarked_last
  · intro digit time times hpos hle hlength burst singly
    have hengine : burst.engine = singly.engine := by
      have hburst : burst.engine = advance^[digit] player.engine :=
        engine_press_digit hpos hle time player
      have hsingly : singly.engine = advance^[times.length] player.engine :=
        engine_play_steps times player
      rw [hburst, hsingly, hlength]
    have hburst : burst.snapshot = burst.engine.last := (hplay.act _).snapshot_eq
    have hsingly : singly.snapshot = singly.engine.last := (hplay.play _).snapshot_eq
    exact ⟨hengine, hburst.trans ((congrArg Engine.last hengine).trans hsingly.symm)⟩

end Player

end Stepwise
