/-!
# Inputs to sort

## Main definitions

* `Stepwise.Sorting.ascending`, `descending` — multiples of five.
* `Stepwise.Sorting.valueOfWord?` — a number from 5 to 104 drawn from a random word.
* `Stepwise.Sorting.random` — numbers drawn from a sequence of random words.
-/

namespace Stepwise.Sorting

/-- The first multiples of five, from the least on. -/
def ascending (size : Nat) : List Int :=
  (List.range size).map fun i => ((i + 1) * 5 : Nat)

/-- The first multiples of five, from the greatest on. -/
def descending (size : Nat) : List Int :=
  (List.range size).map fun i => ((size - i) * 5 : Nat)

/-- The number from 5 to 104 that a word of 64 random bits selects: the high half of
its product with one hundred, counted from five. The words whose low half lies above
the bound are rejected, which keeps all numbers equally likely. -/
def valueOfWord? (word : UInt64) : Option Int :=
  let product := word.toNat * 100
  if product % UInt64.size ≤ 0xC7FFFFFFFFFFFFFF then some (5 + product / UInt64.size : Nat)
  else none

/-- Numbers drawn from random words in order, starting over at the end of the words. -/
def random (size : Nat) (words : List UInt64) : List Int :=
  let values := words.filterMap valueOfWord?
  if values.isEmpty then []
  else (List.range size).map fun i => values.getD (i % values.length) 0

end Stepwise.Sorting
