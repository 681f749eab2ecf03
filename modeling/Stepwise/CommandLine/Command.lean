import Stepwise.CommandLine.Arguments
import Stepwise.Double.Read
import Stepwise.Sorting.Algorithm

/-!
# Commands

## Main definitions

* `Stepwise.CommandLine.Command` — what the program is asked to do.
* `Stepwise.CommandLine.Invocation` — a command with the options of all commands.
* `Stepwise.CommandLine.parse?` — the invocation that arguments make.
-/

namespace Stepwise.CommandLine

/-- The order of a generated input. -/
inductive Order where
  | random
  | ascending
  | descending
  deriving DecidableEq, Repr

/-- The input of a sort. -/
inductive SortInput where
  | given (values : List Int)
  /-- The numbers are generated, random ones from a seed if there is one. -/
  | generated (order : Order) (size : Nat) (seed : Option Nat)
  deriving DecidableEq, Repr

/-- What the program is asked to do. -/
inductive Command where
  /-- Steps through a snippet interactively. -/
  | run (file : Text) (interval maxSteps : Option Nat)
  /-- Runs a snippet and prints its snapshots. -/
  | trace (file : Text) (pretty : Bool) (maxSteps : Option Nat)
  /-- Prints the steps of a sort. -/
  | sort (algorithm : Sorting.Algorithm) (input : SortInput) (json info : Bool)
  deriving DecidableEq, Repr

/-- A command with the options that all commands have. -/
structure Invocation where
  /-- The file with the settings. -/
  config : Option Text
  /-- The file that the log goes to. -/
  logFile : Option Text
  command : Command
  deriving DecidableEq, Repr

/-! ### Values of options -/

/-- A run of digits as a number. -/
def digits? (text : Text) : Option Nat :=
  if !text.isEmpty && text.all Char.isDigit then some (Double.natOfDigits text) else none

/-- An unsigned 64-bit number, which a plus sign may precede. -/
def word? (text : Text) : Option Nat :=
  let digits := match text with
    | '+' :: digits => digits
    | digits => digits
  (digits? digits).filter fun n => n < UInt64.size

/-- A signed 64-bit number. -/
def integer? (text : Text) : Option Int :=
  let (negative, digits) := Double.splitSign text
  match digits? digits with
  | none => none
  | some n =>
    let value : Int := if negative then -n else n
    if -9223372036854775808 ≤ value && value ≤ 9223372036854775807 then some value else none

/-- A path, which is not empty. -/
def path? (text : Text) : Option Text :=
  if text.isEmpty then none else some text

/-- The order with a given name. -/
def order? (text : Text) : Option Order :=
  if text = "random".toList then some .random
  else if text = "ascending".toList then some .ascending
  else if text = "descending".toList then some .descending
  else none

/-- The value of an option if it is given; it must be readable then. -/
def optional {α : Type} (read : Text → Option α) : Option Text → Option (Option α)
  | none => some none
  | some text => (read text).map some

/-! ### Commands -/

/-- The options that all commands have. -/
def globalRules : List OptionRule :=
  [{ name := "config".toList }, { name := "log-file".toList }]

/-- The single operand of a command. -/
def operand? (given : Given) : Option Text :=
  match given.operands with
  | [operand] => some operand
  | _ => none

/-- The command that steps through a snippet. -/
def runCommand? (given : Given) : Option Command := do
  let file ← (operand? given).bind path?
  let interval ← optional word? (given.value? "interval-ms")
  let maxSteps ← optional word? (given.value? "max-steps")
  some (.run file interval maxSteps)

/-- The command that prints snapshots. -/
def traceCommand? (given : Given) : Option Command := do
  let file ← (operand? given).bind path?
  let maxSteps ← optional word? (given.value? "max-steps")
  some (.trace file (given.has "pretty") maxSteps)

/-- The input of a sort: numbers, or what to generate, but not both. -/
def sortInput? (given : Given) : Option SortInput := do
  let order ← optional order? (given.value? "order")
  let size ← optional word? (given.value? "size")
  let seed ← optional word? (given.value? "seed")
  if given.has "values" then
    if order.isSome || size.isSome || seed.isSome then none
    else
      let values ← ((given.values "values").flatMap (Text.splitOn ',')).mapM integer?
      some (.given values)
  else some (.generated (order.getD .random) (size.getD 15) seed)

/-- The command that prints the steps of a sort. -/
def sortCommand? (given : Given) : Option Command := do
  let algorithm ← (operand? given).bind fun name => (Sorting.Algorithm.ofName name).toOption
  let input ← sortInput? given
  some (.sort algorithm input (given.has "json") (given.has "info"))

/-- The options of the command with a given name, and how it is made from them. -/
def commandNamed? (name : Text) : Option (List OptionRule × (Given → Option Command)) :=
  let flag (name : String) : OptionRule := { name := name.toList, takesValue := false }
  let valued (name : String) : OptionRule := { name := name.toList }
  if name = "run".toList then some ([valued "interval-ms", valued "max-steps"], runCommand?)
  else if name = "trace".toList then some ([flag "pretty", valued "max-steps"], traceCommand?)
  else if name = "sort".toList then
    some ([{ name := "values".toList, repeats := true, dashValues := true },
      valued "order", valued "size", valued "seed", flag "json", flag "info"], sortCommand?)
  else none

/-- The invocation that arguments make. The options of all commands may stand before
and after the name of the command; those after it win. -/
def parse? (arguments : List Text) : Option Invocation := do
  let (before, rest) ← readArguments globalRules true {} arguments
  match rest with
  | [] => none
  | name :: rest =>
    let (rules, make) ← commandNamed? name
    let (after, _) ← readArguments (globalRules ++ rules) false {} rest
    let pathOf (name : String) : Option (Option Text) := do
      let early ← optional path? (before.value? name)
      let late ← optional path? (after.value? name)
      some (late.or early)
    let config ← pathOf "config"
    let logFile ← pathOf "log-file"
    let command ← make after
    some { config, logFile, command }

end Stepwise.CommandLine
