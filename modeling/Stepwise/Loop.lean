import Stepwise.Text.Basic

/-!
# Loop trackers

A loop header opens a tracker for its controlling variable. The tracker follows the
numbers written to the variable until a newer loop on the same variable, or the end
of the run, makes it inactive.

## Main definitions

* `Stepwise.Loop.Tracker` — the record of one loop.
* `Stepwise.Loop.Tracker.progress` — how far the variable has come to its bound.
* `Stepwise.Loop.Table` — all trackers since the last clearing.
* `Stepwise.Loop.Table.openLoop`, `observe`, `deactivateAll`, `clear`, `hasHeader`, `get?`.
-/

namespace Stepwise.Loop

/-- The record of one loop. -/
structure Tracker where
  /-- The place of the tracker in the order of opening, counted from zero. -/
  index : Nat
  /-- The controlling variable. -/
  variableName : Text
  /-- The last number that the variable took. -/
  current : Float
  /-- The number at which the loop ends. -/
  bound : Float
  /-- All numbers that the variable took, oldest first. -/
  history : List Float
  /-- The tracker follows its variable. -/
  active : Bool
  /-- The line of the header that opened the tracker. -/
  line : Nat
  deriving Inhabited

/-- The identifier of the tracker with a given index. -/
def label (index : Nat) : Text :=
  "loop_".toList ++ Text.ofNat index

/-- The identifier of a tracker. -/
def Tracker.id (tracker : Tracker) : Text :=
  label tracker.index

/-- A number kept between zero and one; `NaN` stays. -/
def clampUnit (x : Float) : Float :=
  if x < 0.0 then 0.0 else if 1.0 < x then 1.0 else x

/-- The part of the way from the first number to the bound that the variable has
covered. Where there is no way, it is covered exactly at the bound. -/
def Tracker.progress (tracker : Tracker) : Float :=
  let start := tracker.history.headD tracker.current
  let span := tracker.bound - start
  if span == 0.0 || span.isNaN || span.isInf then
    if tracker.current == tracker.bound then 1.0 else 0.0
  else clampUnit ((tracker.current - start) / span)

/-- The tracker no longer follows its variable. -/
def Tracker.deactivate (tracker : Tracker) : Tracker :=
  { tracker with active := false }

/-- The tracker is active and follows the given variable. -/
def Tracker.follows (tracker : Tracker) (name : Text) : Bool :=
  tracker.active && tracker.variableName == name

/-- The tracker after its variable took a number. -/
def Tracker.record (tracker : Tracker) (value : Float) : Tracker :=
  { tracker with current := value, history := tracker.history ++ [value] }

/-- The trackers in the order of opening. -/
structure Table where
  trackers : List Tracker := []
  /-- The index of the next tracker. -/
  next : Nat := 0
  deriving Inhabited

namespace Table

/-- The table without trackers. -/
def empty : Table := {}

/-- Opens a tracker. An earlier one on the same variable no longer follows it. -/
def openLoop (table : Table) (name : Text) (current bound : Float) (line : Nat) : Table where
  trackers :=
    table.trackers.map (fun t => if t.follows name then t.deactivate else t) ++
      [{ index := table.next, variableName := name, current, bound, history := [current],
         active := true, line }]
  next := table.next + 1

/-- The header on the given line has opened a tracker. -/
def hasHeader (table : Table) (line : Nat) : Bool :=
  table.trackers.any fun t => t.line == line

/-- The table after a number was written to a variable. -/
def observe (table : Table) (name : Text) (value : Float) : Table :=
  { table with trackers := table.trackers.map fun t => if t.follows name then t.record value else t }

/-- The table after the end of the run. -/
def deactivateAll (table : Table) : Table :=
  { table with trackers := table.trackers.map Tracker.deactivate }

/-- Forgets all trackers; their indices start from zero again. -/
def clear (table : Table) : Table :=
  { table with trackers := [], next := 0 }

/-- The tracker with the given identifier. -/
def get? (table : Table) (id : Text) : Option Tracker :=
  table.trackers.find? fun t => t.id == id

end Table

end Stepwise.Loop
