import Mathlib.Data.List.Forall2
import Mathlib.Data.List.Induction
import Stepwise.Proofs.Loop.Trackers

/-!
# The table as a registry of openings

A table that starts empty is changed by opening loops, by writes to variables, by the end of a
run and by clearing. Its trackers are those of the openings since the last clearing, in
order, and the identifier of a tracker is its place in this order. A later tracker on a
variable takes it away from all earlier ones, so at most one tracker follows a variable.

## Main definitions

* `Stepwise.Loop.Operation` — a change of a table.
* `Stepwise.Loop.Table.after` — the table after a sequence of operations.
* `Stepwise.Loop.openings` — the openings since the last clearing.
* `Stepwise.Loop.Table.Registers` — the invariant that ties a table to these openings.

## Main results

* `Stepwise.Loop.Table.Registers.perform`, `Stepwise.Loop.Table.registers_after` — what one
  operation and what any operations keep.
* `Stepwise.Loop.Table.exists_later_perform`, `Stepwise.Loop.Table.exists_later` — what one
  operation and what any operations but clearing leave of a tracker.
* `Stepwise.Loop.Table.registry` — the table after any operations.
-/

namespace Stepwise.Loop

/-! ### Identifiers -/

theorem label_injective : Function.Injective label :=
  (List.append_right_injective _).comp fun _ _ => Text.ofNat_injective

/-! ### Operations -/

/-- What is known of a loop when it is opened. -/
structure Opening where
  /-- The controlling variable. -/
  variableName : Text
  /-- The first number of the variable. -/
  current : Float
  bound : Float
  line : Nat

/-- A change of a table. -/
inductive Operation where
  /-- A loop is opened. -/
  | openLoop (opening : Opening)
  /-- A number is written to a variable. -/
  | observe (name : Text) (value : Float)
  /-- The run ends. -/
  | deactivateAll
  /-- All trackers are forgotten. -/
  | clear

/-- The openings since the last clearing after one more operation. -/
def Operation.note (opened : List Opening) : Operation → List Opening
  | .openLoop opening => opened ++ [opening]
  | .observe _ _ => opened
  | .deactivateAll => opened
  | .clear => []

/-- The openings since the last clearing, oldest first. -/
def openings (operations : List Operation) : List Opening :=
  operations.foldl Operation.note []

/-- The tracker belongs to the given opening. -/
structure Tracker.OpenedBy (opening : Opening) (tracker : Tracker) : Prop where
  variableName_eq : tracker.variableName = opening.variableName
  bound_eq : tracker.bound = opening.bound
  line_eq : tracker.line = opening.line
  /-- Its history starts with the number of the opening. -/
  head?_history : tracker.history.head? = some opening.current

/-- What an operation makes of a tracker that it does not forget. -/
def Operation.touch : Operation → Tracker → Tracker
  | .openLoop opening, t => if t.follows opening.variableName then t.deactivate else t
  | .observe name value, t => if t.follows name then t.record value else t
  | .deactivateAll, t => t.deactivate
  | .clear, t => t

namespace Operation

variable (operation : Operation) {tracker : Tracker}

/-- An operation keeps the index of a tracker, and only extends its history. -/
theorem extends_touch (tracker : Tracker) :
    (operation.touch tracker).index = tracker.index ∧
      ∃ numbers, tracker.Extends numbers (operation.touch tracker) := by
  cases operation with
  | openLoop opening =>
    simp only [touch]
    split
    · exact ⟨rfl, [], tracker.extends_deactivate⟩
    · exact ⟨rfl, [], .refl tracker⟩
  | observe name value =>
    simp only [touch]
    split
    · exact ⟨rfl, [value], tracker.extends_record value⟩
    · exact ⟨rfl, [], .refl tracker⟩
  | deactivateAll => exact ⟨rfl, [], tracker.extends_deactivate⟩
  | clear => exact ⟨rfl, [], .refl tracker⟩

theorem touch_of_inactive (h : tracker.active = false) : operation.touch tracker = tracker := by
  have hfollows : ∀ name, tracker.follows name = false := fun name => by
    rw [Tracker.follows, h, Bool.false_and]
  cases operation with
  | openLoop opening => rw [touch, hfollows, if_neg Bool.false_ne_true]
  | observe name value => rw [touch, hfollows, if_neg Bool.false_ne_true]
  | deactivateAll => rw [touch, Tracker.deactivate, ← h]
  | clear => rfl

theorem follows_touch {name : Text} (h : tracker.follows name = false) :
    (operation.touch tracker).follows name = false := by
  obtain ⟨-, numbers, hextends⟩ := operation.extends_touch tracker
  by_contra hfollows
  obtain ⟨hactive, hname⟩ := Tracker.follows_iff.1 (Bool.eq_true_of_not_eq_false hfollows)
  rw [Tracker.follows_iff.2 ⟨hextends.active_of hactive, hextends.variableName_eq ▸ hname⟩] at h
  cases h

end Operation

namespace Table

/-- The table after an operation. -/
def perform (table : Table) : Operation → Table
  | .openLoop opening =>
    table.openLoop opening.variableName opening.current opening.bound opening.line
  | .observe name value => table.observe name value
  | .deactivateAll => table.deactivateAll
  | .clear => table.clear

/-- The table after a sequence of operations, which starts empty. -/
def after (operations : List Operation) : Table :=
  operations.foldl perform empty

/-- An operation that forgets nothing keeps the places of the trackers. -/
theorem getElem?_perform {table : Table} {operation : Operation} {i : Nat} {tracker : Tracker}
    (hclear : operation ≠ .clear) (h : table.trackers[i]? = some tracker) :
    (table.perform operation).trackers[i]? = some (operation.touch tracker) := by
  have hmap : (table.trackers.map operation.touch)[i]? = some (operation.touch tracker) := by
    rw [List.getElem?_map, h, Option.map_some]
  cases operation with
  | openLoop opening =>
    obtain ⟨hlt, _⟩ := List.getElem?_eq_some_iff.1 hmap
    exact (List.getElem?_append_left hlt).trans hmap
  | observe name value => exact hmap
  | deactivateAll => exact hmap
  | clear => exact absurd rfl hclear

/-! ### The invariant -/

/-- The table holds one tracker for each of the openings, in order. -/
structure Registers (opened : List Opening) (table : Table) : Prop where
  /-- The trackers belong to the openings. -/
  openedBy : List.Forall₂ Tracker.OpenedBy opened table.trackers
  /-- The next index is the number of trackers. -/
  next_eq : table.next = table.trackers.length
  /-- The index of a tracker is its place. -/
  map_index : table.trackers.map Tracker.index = List.range table.trackers.length
  /-- No tracker follows the variable of a later one. -/
  yields : table.trackers.Pairwise fun earlier later =>
    earlier.follows later.variableName = false
  /-- The history of a tracker ends with its current number. -/
  getLast?_history : ∀ tracker ∈ table.trackers, tracker.history.getLast? = some tracker.current

variable {table : Table} {opened : List Opening}

theorem registers_empty : empty.Registers [] :=
  ⟨.nil, rfl, rfl, .nil, by simp [empty]⟩

/-- The invariant is kept where an operation only changes the trackers that are there. -/
theorem Registers.map_touch (h : table.Registers opened) (operation : Operation) :
    Registers opened { table with trackers := table.trackers.map operation.touch } where
  openedBy := by
    refine List.forall₂_map_right_iff.2 (h.openedBy.imp ?_)
    intro opening tracker hopened
    obtain ⟨-, numbers, hextends⟩ := operation.extends_touch tracker
    refine ⟨hextends.variableName_eq.trans hopened.variableName_eq,
      hextends.bound_eq.trans hopened.bound_eq, hextends.line_eq.trans hopened.line_eq, ?_⟩
    rw [hextends.history_eq, List.head?_append, hopened.head?_history, Option.some_or]
  next_eq := by
    rw [List.length_map]
    exact h.next_eq
  map_index := by
    have hindex : Tracker.index ∘ operation.touch = Tracker.index :=
      funext fun tracker => (operation.extends_touch tracker).1
    rw [List.map_map, hindex, h.map_index, List.length_map]
  yields := by
    refine List.pairwise_map.2 (h.yields.imp ?_)
    intro earlier later hyields
    obtain ⟨-, numbers, hextends⟩ := operation.extends_touch later
    rw [hextends.variableName_eq]
    exact operation.follows_touch hyields
  getLast?_history := by
    intro tracker hmem
    obtain ⟨before, hbefore, rfl⟩ := List.mem_map.1 hmem
    obtain ⟨-, numbers, hextends⟩ := operation.extends_touch before
    exact hextends.getLast?_history (h.getLast?_history before hbefore)

/-- The invariant is kept by a new tracker, if no other one follows its variable. -/
theorem Registers.concat (h : table.Registers opened) {opening : Opening} {tracker : Tracker}
    (hopened : tracker.OpenedBy opening) (hindex : tracker.index = table.next)
    (hlast : tracker.history.getLast? = some tracker.current)
    (hyields : ∀ earlier ∈ table.trackers, earlier.follows tracker.variableName = false) :
    Registers (opened ++ [opening])
      { trackers := table.trackers ++ [tracker], next := table.next + 1 } where
  openedBy := List.rel_append h.openedBy (.cons hopened .nil)
  next_eq := by rw [List.length_append, List.length_singleton, h.next_eq]
  map_index := by
    rw [List.map_append, h.map_index, List.map_singleton, hindex, h.next_eq, List.length_append,
      List.length_singleton, List.range_succ]
  yields := by
    refine List.pairwise_append.2 ⟨h.yields, List.pairwise_singleton _ _, ?_⟩
    intro earlier hmem later hlater
    rw [List.mem_singleton.1 hlater]
    exact hyields earlier hmem
  getLast?_history := by
    intro other hmem
    rcases List.mem_append.1 hmem with hmem | hmem
    · exact h.getLast?_history other hmem
    · rw [List.mem_singleton.1 hmem]
      exact hlast

/-- Every operation keeps the invariant, with the openings noted. -/
theorem Registers.perform (h : table.Registers opened) (operation : Operation) :
    (table.perform operation).Registers (operation.note opened) := by
  cases operation with
  | openLoop opening =>
    refine (h.map_touch (.openLoop opening)).concat ⟨rfl, rfl, rfl, rfl⟩ rfl rfl ?_
    intro earlier hmem
    obtain ⟨before, -, rfl⟩ := List.mem_map.1 hmem
    simp only [Operation.touch]
    split
    · rfl
    · next hfollows => exact Bool.eq_false_of_not_eq_true hfollows
  | observe name value => exact h.map_touch (.observe name value)
  | deactivateAll => exact h.map_touch .deactivateAll
  | clear => exact registers_empty

/-- Any operations keep the invariant. -/
theorem registers_after (operations : List Operation) :
    (after operations).Registers (openings operations) := by
  induction operations using List.reverseRecOn with
  | nil => exact registers_empty
  | append_singleton operations operation ih =>
    rw [after, openings, List.foldl_append, List.foldl_append]
    exact ih.perform operation

/-! ### What the invariant says -/

theorem Registers.id_eq (h : table.Registers opened) {k : Nat} {tracker : Tracker}
    (hk : table.trackers[k]? = some tracker) : tracker.id = label k := by
  have hindex := congrArg (·[k]?) h.map_index
  obtain ⟨hlt, -⟩ := List.getElem?_eq_some_iff.1 hk
  simp only [List.getElem?_map, hk, Option.map_some, List.getElem?_range hlt,
    Option.some.injEq] at hindex
  rw [Tracker.id, hindex]

/-- The tracker at a place is found by the identifier of the place. -/
theorem Registers.get?_label (h : table.Registers opened) (k : Nat) :
    table.get? (label k) = table.trackers[k]? := by
  cases hk : table.trackers[k]? with
  | none =>
    refine List.find?_eq_none.2 fun tracker hmem hid => ?_
    obtain ⟨j, hj⟩ := List.getElem?_of_mem hmem
    rw [h.id_eq hj, beq_iff_eq] at hid
    rw [label_injective hid, hk] at hj
    cases hj
  | some tracker =>
    obtain ⟨hlt, hget⟩ := List.getElem?_eq_some_iff.1 hk
    refine List.find?_eq_some_iff_getElem.2 ⟨?_, k, hlt, hget, fun j hj => ?_⟩
    · rw [h.id_eq hk, beq_self_eq_true]
    · have hne : label j ≠ label k := fun hlabel => hj.ne (label_injective hlabel)
      rw [h.id_eq (List.getElem?_eq_getElem (hj.trans hlt)), beq_eq_false_iff_ne.2 hne,
        Bool.not_false]

theorem Registers.get?_eq_none (h : table.Registers opened) {id : Text}
    (hid : ∀ k < opened.length, id ≠ label k) : table.get? id = none := by
  refine List.find?_eq_none.2 fun tracker hmem heq => ?_
  obtain ⟨k, hk⟩ := List.getElem?_of_mem hmem
  obtain ⟨hlt, -⟩ := List.getElem?_eq_some_iff.1 hk
  rw [h.id_eq hk, beq_iff_eq] at heq
  exact hid k (h.openedBy.length_eq ▸ hlt) heq.symm

/-- A tracker that follows its variable is the newest on it. -/
theorem Registers.newest (h : table.Registers opened) {i j : Nat} {tracker other : Tracker}
    (hi : table.trackers[i]? = some tracker) (hj : table.trackers[j]? = some other)
    (hactive : tracker.active = true) (hname : other.variableName = tracker.variableName) :
    j ≤ i := by
  by_contra hlt
  obtain ⟨hi', rfl⟩ := List.getElem?_eq_some_iff.1 hi
  obtain ⟨hj', rfl⟩ := List.getElem?_eq_some_iff.1 hj
  have hyields := List.pairwise_iff_getElem.1 h.yields i j hi' hj' (not_le.1 hlt)
  rw [Tracker.follows_iff.2 ⟨hactive, hname.symm⟩] at hyields
  cases hyields

/-! ### Later versions of a tracker -/

/-- What an operation that forgets nothing leaves of a tracker: its history may grow, and if it
is inactive it stays as it is. -/
theorem exists_later_perform {table : Table} {operation : Operation} {i : Nat}
    {tracker : Tracker} (hclear : operation ≠ .clear) (h : table.trackers[i]? = some tracker) :
    ∃ later, (table.perform operation).trackers[i]? = some later ∧
      tracker.history <+: later.history ∧ (tracker.active = false → later = tracker) := by
  obtain ⟨-, numbers, hextends⟩ := operation.extends_touch tracker
  refine ⟨_, getElem?_perform hclear h, ?_, operation.touch_of_inactive⟩
  exact ⟨numbers, hextends.history_eq.symm⟩

/-- The same of any operations that forget nothing. -/
theorem exists_later {table : Table} {operations : List Operation} {i : Nat} {tracker : Tracker}
    (hclear : Operation.clear ∉ operations) (h : table.trackers[i]? = some tracker) :
    ∃ later, (operations.foldl Table.perform table).trackers[i]? = some later ∧
      tracker.history <+: later.history ∧ (tracker.active = false → later = tracker) := by
  induction operations generalizing table tracker with
  | nil => exact ⟨tracker, h, List.prefix_rfl, fun _ => rfl⟩
  | cons operation operations ih =>
    obtain ⟨hne, hrest⟩ := not_or.1 (mt List.mem_cons.2 hclear)
    obtain ⟨next, hnext, hgrows, hstays⟩ := exists_later_perform (Ne.symm hne) h
    obtain ⟨later, hlater, hgrows', hstays'⟩ := ih hrest hnext
    refine ⟨later, hlater, hgrows.trans hgrows', fun hactive => ?_⟩
    obtain rfl := hstays hactive
    exact hstays' hactive

/-- A table after any operations holds one tracker for each opening since the last clearing,
in order. The identifier of the tracker at place `k` is that of `k`, which finds it, and no
other identifier finds anything. A tracker that follows its variable is the newest one on
it, so no other one follows it. The history of a tracker is not empty and ends with
its current number. Until the next clearing the histories only grow at their end, and a
tracker that no longer follows its variable stays as it is. -/
theorem registry (operations : List Operation) :
    (after operations).trackers.length = (openings operations).length ∧
    (∀ k tracker, (after operations).trackers[k]? = some tracker → tracker.id = label k ∧
      ∃ opening, (openings operations)[k]? = some opening ∧ tracker.OpenedBy opening) ∧
    (∀ k, (after operations).get? (label k) = (after operations).trackers[k]?) ∧
    (∀ id, (∀ k < (openings operations).length, id ≠ label k) →
      (after operations).get? id = none) ∧
    (∀ (i j : Nat) (tracker other : Tracker), (after operations).trackers[i]? = some tracker →
      (after operations).trackers[j]? = some other → tracker.active = true →
      other.variableName = tracker.variableName → j ≤ i ∧ (other.active = true → i = j)) ∧
    (∀ tracker ∈ (after operations).trackers,
      tracker.history ≠ [] ∧ tracker.history.getLast? = some tracker.current) ∧
    ∀ more, Operation.clear ∉ more →
      ∀ (i : Nat) (tracker : Tracker), (after operations).trackers[i]? = some tracker →
        ∃ later : Tracker, (after (operations ++ more)).trackers[i]? = some later ∧
          tracker.history <+: later.history ∧ (tracker.active = false → later = tracker) := by
  have h := registers_after operations
  refine ⟨h.openedBy.length_eq.symm, ?_, h.get?_label, fun id => h.get?_eq_none, ?_, ?_, ?_⟩
  · intro k tracker hk
    obtain ⟨hlt, hget⟩ := List.getElem?_eq_some_iff.1 hk
    have hlt' : k < (openings operations).length := h.openedBy.length_eq ▸ hlt
    refine ⟨h.id_eq hk, _, List.getElem?_eq_getElem hlt', ?_⟩
    rw [← hget]
    exact h.openedBy.get hlt' hlt
  · intro i j tracker other hi hj hactive hname
    refine ⟨h.newest hi hj hactive hname, fun hother => le_antisymm ?_ ?_⟩
    · exact h.newest hj hi hother hname.symm
    · exact h.newest hi hj hactive hname
  · intro tracker hmem
    have hlast := h.getLast?_history tracker hmem
    refine ⟨fun hnil => ?_, hlast⟩
    rw [hnil] at hlast
    cases hlast
  · intro more hclear i tracker hi
    rw [after, List.foldl_append]
    exact exists_later hclear hi

end Table

end Stepwise.Loop
