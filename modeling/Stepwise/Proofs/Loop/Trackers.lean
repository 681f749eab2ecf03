import Mathlib.Data.List.Basic
import Stepwise.Proofs.Engine.Effect
import Stepwise.Proofs.Environment

/-!
# Trackers that grow

A tracker keeps its place in the table, its variable, its bound and its line; only its
history grows, and its current number is the last one of the history. This file says what
each operation of the table adds to each tracker.

## Main definitions

* `Stepwise.Loop.Tracker.Extends` — a later version of a tracker, with the numbers that
  its history has grown by.
* `Stepwise.Loop.Table.Agrees` — active trackers show the number of their variable.

## Main results

* `Stepwise.Loop.Table.extends_feed`, `extends_openHeader`, `extends_deactivateAll` — what
  the operations add.
* `Stepwise.Loop.Table.Agrees.feed`, `Stepwise.Loop.Table.Agrees.openHeader` — writes and new
  headers keep the trackers in agreement with the environment.
-/

namespace Stepwise.Loop

/-! ### Later versions of a tracker -/

namespace Tracker

/-- A later version of a tracker, whose history has grown by the given numbers. -/
structure Extends (numbers : List Float) (tracker later : Tracker) : Prop where
  variableName_eq : later.variableName = tracker.variableName
  bound_eq : later.bound = tracker.bound
  line_eq : later.line = tracker.line
  /-- The numbers are added to the history. -/
  history_eq : later.history = tracker.history ++ numbers
  /-- The last of them becomes the current number. -/
  current_eq : later.current = numbers.getLast?.getD tracker.current
  /-- What no longer follows its variable does not start to follow it again. -/
  active_of : later.active = true → tracker.active = true

variable {tracker later : Tracker} {numbers more : List Float}

theorem Extends.refl (tracker : Tracker) : tracker.Extends [] tracker :=
  ⟨rfl, rfl, rfl, (List.append_nil _).symm, rfl, fun h => h⟩

theorem Extends.trans {last : Tracker} (h : tracker.Extends numbers later)
    (h' : later.Extends more last) : tracker.Extends (numbers ++ more) last where
  variableName_eq := h'.variableName_eq.trans h.variableName_eq
  bound_eq := h'.bound_eq.trans h.bound_eq
  line_eq := h'.line_eq.trans h.line_eq
  history_eq := by rw [h'.history_eq, h.history_eq, List.append_assoc]
  current_eq := by
    rw [h'.current_eq, h.current_eq, List.getLast?_append]
    cases more.getLast? <;> rfl
  active_of := fun hactive => h.active_of (h'.active_of hactive)

theorem Extends.getLast?_history (h : tracker.Extends numbers later)
    (hlast : tracker.history.getLast? = some tracker.current) :
    later.history.getLast? = some later.current := by
  rw [h.history_eq, h.current_eq, List.getLast?_append, hlast]
  cases numbers.getLast? <;> rfl

/-- Deactivating adds nothing. -/
theorem extends_deactivate (tracker : Tracker) : tracker.Extends [] tracker.deactivate :=
  ⟨rfl, rfl, rfl, (List.append_nil _).symm, rfl, fun h => by cases h⟩

theorem extends_record (tracker : Tracker) (x : Float) : tracker.Extends [x] (tracker.record x) :=
  ⟨rfl, rfl, rfl, rfl, rfl, fun h => h⟩

/-- A tracker that was just opened on the given line. -/
structure IsFresh (line : Nat) (tracker : Tracker) : Prop where
  /-- The history is the number that the tracker was opened with. -/
  history_eq : tracker.history = [tracker.current]
  /-- The tracker follows its variable. -/
  active_eq : tracker.active = true
  line_eq : tracker.line = line

theorem follows_iff {name : Text} :
    tracker.follows name = true ↔ tracker.active = true ∧ tracker.variableName = name := by
  rw [follows, Bool.and_eq_true, beq_iff_eq]

end Tracker

/-! ### Operations of the table -/

namespace Table

variable {table : Table} {i : Nat} {tracker : Tracker}

private theorem exists_map {f : Tracker → Tracker} {numbers : List Float}
    (h : table.trackers[i]? = some tracker) (hf : tracker.Extends numbers (f tracker)) :
    ∃ later, (table.trackers.map f)[i]? = some later ∧ tracker.Extends numbers later := by
  refine ⟨f tracker, ?_, hf⟩
  rw [List.getElem?_map, h]
  rfl

/-- The number that a write feeds to a tracker: only active trackers of the variable are
fed, and only numbers. -/
def fed (tracker : Tracker) (name : Text) (value : Value) : List Float :=
  if tracker.follows name then value.number?.toList else []

/-- A write adds what it feeds. -/
theorem extends_feed (h : table.trackers[i]? = some tracker) (name : Text) (value : Value) :
    ∃ later, (table.feed name value).trackers[i]? = some later ∧
      tracker.Extends (fed tracker name value) later := by
  unfold feed fed
  cases value.number? with
  | none =>
    refine ⟨tracker, h, ?_⟩
    rw [Option.toList_none, ite_self]
    exact .refl tracker
  | some x =>
    refine exists_map h ?_
    split
    · exact tracker.extends_record x
    · exact .refl tracker

theorem extends_openLoop (h : table.trackers[i]? = some tracker) (name : Text)
    (current bound : Float) (line : Nat) :
    ∃ later, (table.openLoop name current bound line).trackers[i]? = some later ∧
      tracker.Extends [] later := by
  have hlt : i < table.trackers.length := (List.getElem?_eq_some_iff.1 h).1
  unfold openLoop
  simp only
  rw [List.getElem?_append_left (by simpa using hlt)]
  refine exists_map h ?_
  split
  · exact tracker.extends_deactivate
  · exact .refl tracker

/-- A loop header adds nothing to the trackers that are there. -/
theorem extends_openHeader (h : table.trackers[i]? = some tracker) (line : Nat)
    (header : Effect.Header) :
    ∃ later, (table.openHeader line header).trackers[i]? = some later ∧
      tracker.Extends [] later := by
  unfold openHeader
  split
  · exact ⟨tracker, h, .refl tracker⟩
  · exact extends_openLoop h _ _ _ _

/-- The end of the run adds nothing. -/
theorem extends_deactivateAll (h : table.trackers[i]? = some tracker) :
    ∃ later, table.deactivateAll.trackers[i]? = some later ∧ tracker.Extends [] later :=
  exists_map h tracker.extends_deactivate

/-! ### New trackers -/

theorem length_feed (table : Table) (name : Text) (value : Value) :
    (table.feed name value).trackers.length = table.trackers.length := by
  unfold feed
  cases value.number? with
  | none => rfl
  | some x => exact List.length_map _

theorem length_deactivateAll (table : Table) :
    table.deactivateAll.trackers.length = table.trackers.length :=
  List.length_map _

/-- A header opens at most one tracker, behind all others. -/
theorem isFresh_of_openHeader {line : Nat} {header : Effect.Header}
    (h : (table.openHeader line header).trackers[i]? = some tracker)
    (hnone : table.trackers[i]? = none) :
    table.trackers.length = i ∧ tracker.IsFresh line := by
  unfold openHeader at h
  split at h
  · rw [hnone] at h
    cases h
  · have hle : table.trackers.length ≤ i := List.getElem?_eq_none_iff.1 hnone
    unfold openLoop at h
    simp only at h
    rw [List.getElem?_append_right (by simpa using hle), List.length_map] at h
    obtain ⟨hlt, hget⟩ := List.getElem?_eq_some_iff.1 h
    have hi : table.trackers.length = i := by
      rw [List.length_singleton] at hlt
      omega
    subst hi
    simp only [Nat.sub_self, List.getElem_cons_zero] at hget
    subst hget
    exact ⟨rfl, rfl, rfl, rfl⟩

/-! ### The trackers after an operation -/

/-- A tracker after a write is an earlier one, which shows the number if it follows the
variable. -/
theorem mem_feed {table : Table} {name : Text} {value : Value} {tracker : Tracker}
    (h : tracker ∈ (table.feed name value).trackers) :
    ∃ before ∈ table.trackers, tracker.line = before.line ∧
      (before.follows name = false ∧ tracker = before ∨
        tracker.variableName = name ∧ ∀ x, value.number? = some x → tracker.current = x) := by
  unfold feed at h
  cases hnumber : value.number? with
  | none =>
    rw [hnumber] at h
    refine ⟨tracker, h, rfl, ?_⟩
    cases hfollows : tracker.follows name with
    | true => exact .inr ⟨(Tracker.follows_iff.1 hfollows).2, nofun⟩
    | false => exact .inl ⟨rfl, rfl⟩
  | some x =>
    rw [hnumber] at h
    obtain ⟨before, hmem, rfl⟩ := List.mem_map.1 h
    refine ⟨before, hmem, ?_⟩
    cases hfollows : before.follows name with
    | true =>
      rw [if_pos rfl]
      refine ⟨rfl, .inr ⟨(Tracker.follows_iff.1 hfollows).2, ?_⟩⟩
      intro y hy
      exact Option.some.inj hy
    | false =>
      rw [if_neg Bool.false_ne_true]
      exact ⟨rfl, .inl ⟨rfl, rfl⟩⟩

/-- A tracker after a header was met is the new one, or an earlier one that does not follow
the variable of the header any more. -/
theorem mem_openHeader {table : Table} {line : Nat} {header : Effect.Header} {tracker : Tracker}
    (hnew : table.hasHeader line = false)
    (h : tracker ∈ (table.openHeader line header).trackers) :
    (tracker.variableName = header.variableName ∧ tracker.current = header.current ∧
        tracker.line = line) ∨
      ∃ before ∈ table.trackers, tracker.line = before.line ∧
        (tracker.active = true → tracker = before ∧
          tracker.variableName ≠ header.variableName) := by
  unfold openHeader at h
  rw [hnew, if_neg Bool.false_ne_true] at h
  rcases List.mem_append.1 h with hold | hopened
  · obtain ⟨before, hmem, rfl⟩ := List.mem_map.1 hold
    refine .inr ⟨before, hmem, ?_⟩
    cases hfollows : before.follows header.variableName with
    | true =>
      rw [if_pos rfl]
      exact ⟨rfl, fun hactive => by cases hactive⟩
    | false =>
      rw [if_neg Bool.false_ne_true]
      refine ⟨rfl, fun hactive => ⟨rfl, fun hname => ?_⟩⟩
      rw [Tracker.follows_iff.2 ⟨hactive, hname⟩] at hfollows
      cases hfollows
  · rw [List.mem_singleton] at hopened
    subst hopened
    exact .inl ⟨rfl, rfl, rfl⟩

/-! ### Agreement with the environment -/

/-- An active tracker shows the number that its variable has, if it has one. -/
def Agrees (table : Table) (env : Environment) : Prop :=
  ∀ tracker ∈ table.trackers, tracker.active = true →
    ∀ x, env.numberOf? tracker.variableName = some x → tracker.current = x

variable {env : Environment}

/-- A write keeps the trackers in agreement with the environment. -/
theorem Agrees.feed (h : table.Agrees env) (name : Text) (value : Value) (constant : Bool) :
    (table.feed name value).Agrees (env.set name value constant) := by
  intro tracker hmem hactive x hnumber
  obtain ⟨before, hbefore, _, hcases⟩ := mem_feed hmem
  rcases hcases with ⟨hfollows, rfl⟩ | ⟨hname, hcurrent⟩
  · -- A tracker that is not fed is active on another variable, which keeps its number.
    have hne : tracker.variableName ≠ name := by
      intro hname
      rw [Tracker.follows_iff.2 ⟨hactive, hname⟩] at hfollows
      cases hfollows
    rw [Environment.numberOf?_set_of_ne _ _ _ hne] at hnumber
    exact h tracker hbefore hactive x hnumber
  · rw [hname, Environment.numberOf?_set_self] at hnumber
    exact hcurrent x hnumber

/-- A new header keeps the trackers in agreement with an environment that differs from the
one before at most in the variable of the header, and has no other number there than the
header. A header met again would not: it writes the variable, but opens no tracker. -/
theorem Agrees.openHeader (h : table.Agrees env) {later : Environment} {line : Nat}
    {header : Effect.Header} (hnew : table.hasHeader line = false)
    (hheader : ∀ x, later.numberOf? header.variableName = some x → header.current = x)
    (hother : ∀ name, name ≠ header.variableName → later.numberOf? name = env.numberOf? name) :
    (table.openHeader line header).Agrees later := by
  intro tracker hmem hactive x hnumber
  rcases mem_openHeader hnew hmem with ⟨hname, hcurrent, _⟩ | ⟨before, hbefore, _, hold⟩
  · rw [hcurrent]
    exact hheader x (hname ▸ hnumber)
  · obtain ⟨rfl, hne⟩ := hold hactive
    exact h tracker hbefore hactive x (hother _ hne ▸ hnumber)

theorem agrees_deactivateAll (table : Table) (env : Environment) :
    table.deactivateAll.Agrees env := by
  intro tracker hmem hactive
  obtain ⟨before, _, rfl⟩ := List.mem_map.1 hmem
  cases hactive

end Table

end Stepwise.Loop
