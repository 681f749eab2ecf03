import Stepwise.CommandLine.Command
import Stepwise.Json.Printer
import Stepwise.Random
import Stepwise.Settings
import Stepwise.Sorting.Guide
import Stepwise.Sorting.Input
import Stepwise.Sorting.Trace

/-!
# Carrying out commands

What a command prints depends on its arguments and on what the world around the
program answers: the contents of files, the standard input and a random seed.

## Main definitions

* `Stepwise.CommandLine.World` — what the world is asked for.
* `Stepwise.CommandLine.Failure` — what goes wrong, and the report of it.
* `Stepwise.CommandLine.Outcome` — what the program leaves behind.
* `Stepwise.CommandLine.execute` — the outcome of a list of arguments.
-/

namespace Stepwise.CommandLine

/-! ### The world -/

/-- Why a file cannot be read or made. -/
inductive FileError where
  | notFound
  | isDirectory
  | other (text : Text)
  deriving DecidableEq, Repr

/-- Why a file cannot be read or made, in words. -/
def FileError.message : FileError → Text
  | .notFound => "No such file or directory (os error 2)".toList
  | .isDirectory => "Is a directory (os error 21)".toList
  | .other text => text

/-- What the world is asked for. -/
structure World (m : Type → Type) where
  /-- The contents of a file. -/
  read : Text → m (Except FileError Text)
  /-- Makes an empty file. -/
  create : Text → m (Except FileError Unit)
  /-- The whole standard input. -/
  input : m Text
  /-- A seed that nobody can tell in advance. -/
  freshSeed : m UInt64

/-! ### Failures -/

/-- What goes wrong. -/
inductive Failure where
  | settingsUnreadable (path : Text) (error : FileError)
  | settingsInvalid
  | logUnwritable (path : Text) (error : FileError)
  | sourceUnreadable (path : Text) (error : FileError)
  /-- The interactive player needs the standard input for itself. -/
  | sourceNeedsFile
  /-- The interactive player finds no terminal. -/
  | noTerminal
  deriving DecidableEq, Repr

namespace Failure

/-- What goes wrong, in words. -/
def message : Failure → Text
  | .settingsUnreadable path error =>
    "failed to read ".toList ++ path ++ ": ".toList ++ error.message
  | .settingsInvalid => "invalid configuration".toList
  | .logUnwritable path _ => "failed to create log file ".toList ++ path
  | .sourceUnreadable path _ => "failed to read ".toList ++ path
  | .sourceNeedsFile =>
    "interactive mode cannot read the program from stdin, use `trace` instead".toList
  | .noTerminal => "No such device or address (os error 6)".toList

/-- What lies behind it. -/
def cause : Failure → Option Text
  | .settingsUnreadable _ error | .logUnwritable _ error | .sourceUnreadable _ error =>
    some error.message
  | .settingsInvalid | .sourceNeedsFile | .noTerminal => none

/-- The report of a failure. -/
def report (failure : Failure) : Text :=
  "Error: ".toList ++ failure.message ++
    match failure.cause with
    | some cause => "\n\nCaused by:\n    ".toList ++ cause ++ "\n".toList
    | none => "\n".toList

end Failure

/-! ### Outcomes -/

/-- What a finished program leaves behind. -/
structure Result where
  code : Nat := 0
  stdout : Text := []
  stderr : Text := []
  deriving DecidableEq, Repr

/-- What the program comes to: it finishes, or it goes on interactively. -/
inductive Outcome where
  | finished (result : Result)
  | interactive (engine : Engine) (interval : Nat)

/-- The result of arguments that make no sense. -/
def usageError : Result where
  code := 2
  stderr := "Usage: [--config FILE] [--log-file FILE] run|trace|sort ...\n".toList

/-- The result of a failure. -/
def Failure.result (failure : Failure) : Result where
  code := 1
  stderr := failure.report

/-- Lines of text, each with a line feed. -/
def printed (lines : List Text) : Text :=
  lines.flatMap (· ++ ['\n'])

/-- The result of running a loaded program to its end: all snapshots, or the last one
spread over lines. A failed step is reported but does not make the program fail. -/
def traceResult (engine : Engine) (pretty : Bool) : Result :=
  let snapshots := engine.run.map Engine.last
  let last := snapshots.getLastD engine.current
  { stdout :=
      if pretty then printed [last.toJson.pretty]
      else printed (snapshots.map fun snapshot => snapshot.toJson.compact)
    stderr := match last.error with
      | some report => printed [report]
      | none => [] }

/-- The result of tracing a sort, with the description of its algorithm in front where
it is asked for. -/
def sortResult (algorithm : Sorting.Algorithm) (input : List Int) (json info : Bool) : Result :=
  let guide := algorithm.guide
  let steps := Sorting.trace algorithm input
  { stdout :=
      (if info then printed (if json then [guide.toJson.compact] else guide.lines) else []) ++
        printed (if json then steps.map fun step => step.toJson.compact
          else steps.zipIdx.map fun (step, i) => step.line i) }

/-! ### Execution -/

/-- The path that stands for the standard input. -/
def standardInput : Text := ['-']

variable {m : Type → Type} [Monad m]

/-- The settings in a file, or the default ones. -/
def loadSettings (world : World m) (path : Option Text) : m (Except Failure Settings) := do
  match path with
  | none => return .ok {}
  | some path =>
    match ← world.read path with
    | .error error => return .error (.settingsUnreadable path error)
    | .ok text =>
      match Settings.parse? text with
      | some settings => return .ok settings
      | none => return .error .settingsInvalid

/-- Makes the log file, if there is to be one. -/
def prepareLog (world : World m) (path : Option Text) : m (Except Failure Unit) := do
  match path with
  | none => return .ok ()
  | some path =>
    match ← world.create path with
    | .error error => return .error (.logUnwritable path error)
    | .ok () => return .ok ()

/-- The engine with the program in a file. -/
def loadEngine (world : World m) (path : Text) (settings : EngineSettings) :
    m (Except Failure Engine) := do
  if path = standardInput then
    return .ok ((Engine.new settings).load (← world.input))
  else
    match ← world.read path with
    | .error error => return .error (.sourceUnreadable path error)
    | .ok source => return .ok ((Engine.new settings).load source)

/-- The settings of the engine, where an option of the command wins. -/
def limited (settings : EngineSettings) (maxSteps : Option Nat) : EngineSettings :=
  { settings with maxSteps := maxSteps.or settings.maxSteps }

/-- The number of random words to draw a number of values from. More than three in four
words give a value. -/
def wordCount (size : Nat) : Nat := 2 * size + 64

/-- The numbers to sort. -/
def sortValues (world : World m) : SortInput → m (List Int)
  | .given values => return values
  | .generated .ascending size _ => return Sorting.ascending size
  | .generated .descending size _ => return Sorting.descending size
  | .generated .random size seed => do
    let seed ← match seed with
      | some seed => pure seed.toUInt64
      | none => world.freshSeed
    return Sorting.random size (Random.words seed (wordCount size))

/-- The outcome of a command under given settings. -/
def perform (world : World m) (settings : Settings) : Command → m Outcome
  | .run file interval maxSteps => do
    if file = standardInput then return .finished Failure.sourceNeedsFile.result
    else
      match ← loadEngine world file (limited settings.engine maxSteps) with
      | .error failure => return .finished failure.result
      | .ok engine => return .interactive engine (interval.getD settings.interval)
  | .trace file pretty maxSteps => do
    match ← loadEngine world file (limited settings.engine maxSteps) with
    | .error failure => return .finished failure.result
    | .ok engine => return .finished (traceResult engine pretty)
  | .sort algorithm input json info => do
    return .finished (sortResult algorithm (← sortValues world input) json info)

/-- The outcome of a list of arguments. The arguments are read first, then the log is
made, then the settings are read, and the command comes last. -/
def execute (world : World m) (arguments : List Text) : m Outcome := do
  match parse? arguments with
  | none => return .finished usageError
  | some invocation =>
    match ← prepareLog world invocation.logFile with
    | .error failure => return .finished failure.result
    | .ok () =>
      match ← loadSettings world invocation.config with
      | .error failure => return .finished failure.result
      | .ok settings => perform world settings invocation.command

end Stepwise.CommandLine
