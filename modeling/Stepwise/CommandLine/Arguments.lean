import Stepwise.Text.Basic

/-!
# Arguments

Arguments are options, which start with two dashes, and operands. An option may take
a value, either after an equals sign or as the next argument.

## Main definitions

* `Stepwise.CommandLine.OptionRule` — what is known about an option.
* `Stepwise.CommandLine.Given` — the options and operands of a command.
* `Stepwise.CommandLine.readArguments` — sorts arguments into options and operands.
-/

namespace Stepwise.CommandLine

/-- What is known about an option. -/
structure OptionRule where
  /-- The name without its dashes. -/
  name : Text
  takesValue : Bool := true
  repeats : Bool := false
  /-- The value may start with a dash even as an argument of its own. -/
  dashValues : Bool := false

/-- The options, in order and with their values, and the operands of a command. -/
structure Given where
  /-- The options with their values; an option without one has an empty value. -/
  options : List (Text × Text) := []
  operands : List Text := []

namespace Given

/-- The values of an option. -/
def values (given : Given) (name : String) : List Text :=
  (given.options.filter fun o => o.1 == name.toList).map Prod.snd

/-- The value of an option that is given at most once. -/
def value? (given : Given) (name : String) : Option Text :=
  (given.values name).head?

/-- The option is given. -/
def has (given : Given) (name : String) : Bool :=
  !(given.values name).isEmpty

/-- One more option. -/
def addOption (given : Given) (rule : OptionRule) (value : Text) : Option Given :=
  if !rule.repeats && given.options.any (fun o => o.1 == rule.name) then none
  else some { given with options := given.options ++ [(rule.name, value)] }

/-- More operands. -/
def addOperands (given : Given) (operands : List Text) : Given :=
  { given with operands := given.operands ++ operands }

end Given

/-- Whether an argument looks like an option: a dash with something after it. -/
def looksLikeOption : Text → Bool
  | '-' :: _ :: _ => true
  | _ => false

/-- The name of an option and the value after its equals sign. -/
def splitOption (text : Text) : Text × Option Text :=
  let name := text.takeWhile (· != '=')
  match text.drop name.length with
  | _ :: value => (name, some value)
  | [] => (name, none)

/-- Sorts arguments into options and operands. After two bare dashes all arguments are
operands. Where `stops` holds, the first operand ends the reading, and it comes with
the arguments after it. -/
def readArguments (rules : List OptionRule) (stops : Bool) :
    Given → List Text → Option (Given × List Text)
  | given, [] => some (given, [])
  | given, argument :: rest =>
    match argument with
    | ['-', '-'] => if stops then none else some (given.addOperands rest, [])
    | '-' :: '-' :: text =>
      let (name, attached) := splitOption text
      match rules.find? fun rule => rule.name == name with
      | none => none
      | some rule =>
        match rule.takesValue, attached, rest with
        | false, none, rest => (given.addOption rule []).bind (readArguments rules stops · rest)
        | false, some _, _ => none
        | true, some value, rest =>
          (given.addOption rule value).bind (readArguments rules stops · rest)
        | true, none, [] => none
        | true, none, value :: rest =>
          if looksLikeOption value && !rule.dashValues then none
          else (given.addOption rule value).bind (readArguments rules stops · rest)
    | argument =>
      -- There are no options of a single dash, but a dash alone is an operand.
      if looksLikeOption argument then none
      else if stops then some (given, argument :: rest)
      else readArguments rules stops (given.addOperands [argument]) rest
termination_by _ arguments => arguments.length

end Stepwise.CommandLine
