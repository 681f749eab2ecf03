import Stepwise.Text.Basic

/-!
# The timeline

The timeline records what happened, one entry for each executed line, numbered in
the order of recording.

## Main definitions

* `Stepwise.Timeline.Entry` — what happened on a line.
* `Stepwise.Timeline.record`, `clear` — the timeline with one more entry, and with none.
-/

namespace Stepwise

namespace Timeline

/-- What sort of thing happened. -/
inductive Kind where
  | loop
  | condition
  | assignment
  | output
  | other
  deriving DecidableEq, Repr

/-- The label of a kind. -/
def Kind.label : Kind → Text
  | .loop => "loop".toList
  | .condition => "condition".toList
  | .assignment => "assignment".toList
  | .output => "output".toList
  | .other => "other".toList

/-- What happened on a line. -/
structure Entry where
  line : Nat
  /-- What happened, in words. -/
  description : Text
  /-- The place of the entry in the order of recording, counted from zero. -/
  timestamp : Nat
  /-- What sort of thing happened. -/
  kind : Kind
  deriving DecidableEq, Repr

end Timeline

/-- The entries since the last clearing, oldest first. -/
structure Timeline where
  entries : List Timeline.Entry := []
  /-- The timestamp of the next entry. -/
  next : Nat := 0
  deriving DecidableEq, Repr, Inhabited

namespace Timeline

/-- The timeline without entries. -/
def empty : Timeline := {}

/-- The timeline with one more entry. -/
def record (timeline : Timeline) (line : Nat) (kind : Kind) (description : Text) : Timeline where
  entries := timeline.entries ++ [{ line, description, timestamp := timeline.next, kind }]
  next := timeline.next + 1

/-- Forgets all entries; timestamps start from zero again. -/
def clear (timeline : Timeline) : Timeline :=
  { timeline with entries := [], next := 0 }

end Timeline

end Stepwise
