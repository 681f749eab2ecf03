import Stepwise.Text.Basic

/-!
# Sorting algorithms

## Main definitions

* `Stepwise.Sorting.Algorithm` — the five algorithms.
* `Stepwise.Sorting.Algorithm.ofName` — the algorithm with a given name.
* `Stepwise.Sorting.UnknownAlgorithm` — a name that no algorithm has.
-/

namespace Stepwise.Sorting

/-- The sorting algorithms that can be traced. -/
inductive Algorithm where
  | bubble
  | selection
  | insertion
  | quick
  | merge
  deriving DecidableEq, Repr

namespace Algorithm

/-- All algorithms. -/
def all : List Algorithm := [.bubble, .selection, .insertion, .quick, .merge]

/-- The name of an algorithm. -/
def name : Algorithm → Text
  | .bubble => "bubble".toList
  | .selection => "selection".toList
  | .insertion => "insertion".toList
  | .quick => "quick".toList
  | .merge => "merge".toList

end Algorithm

/-- A name that no algorithm has. -/
structure UnknownAlgorithm where
  name : Text
  deriving DecidableEq, Repr

/-- What is wrong with the name. -/
def UnknownAlgorithm.message (unknown : UnknownAlgorithm) : Text :=
  "unknown sort algorithm '".toList ++ unknown.name ++
    "' (expected bubble, selection, insertion, quick, or merge)".toList

/-- The algorithm with a given name. White space around it and the case of ASCII
letters do not matter. -/
def Algorithm.ofName (name : Text) : Except UnknownAlgorithm Algorithm :=
  match all.find? fun a => a.name == name.trim.map Char.toLower with
  | some algorithm => .ok algorithm
  | none => .error ⟨name⟩

end Stepwise.Sorting
