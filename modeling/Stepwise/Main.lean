import Stepwise.CommandLine.Execute
import Stepwise.Player.View

/-!
# The program

The outer layer: it answers what the commands ask of the world, and it plays a snippet
on the terminal. Keys are read a line at a time.
-/

namespace Stepwise.Main

open CommandLine (FileError Outcome Result World)
open Player (Event Key)

/-- Why an operation on a file failed. -/
def fileError : IO.Error → FileError
  | .noFileOrDirectory .. => .notFound
  | .inappropriateType .. => .isDirectory
  | error => .other error.toString.toList

/-- Runs an operation on a file and keeps its failure. -/
def attempt {α : Type} (action : IO α) : IO (Except FileError α) := do
  try
    return .ok (← action)
  catch error =>
    return .error (fileError error)

/-- The world that the program runs in. -/
def world : World IO where
  read path := attempt do
    return (← IO.FS.readFile (String.ofList path)).toList
  create path := attempt do
    IO.FS.writeFile (String.ofList path) ""
  input := do
    return (← (← IO.getStdin).readToEnd).toList
  freshSeed := do
    return (← IO.getRandomBytes 8).foldl (fun seed byte => seed * 256 + byte.toUInt64) 0

/-! ### Playing -/

/-- The width of the picture. -/
def width : Nat := 100

/-- The height of the picture. -/
def height : Nat := 30

/-- The keys that a line stands for: the key that it names, or its characters. -/
def keysOf (line : String) : List Key :=
  match line.trimAscii.toString with
  | "left" => [.left]
  | "right" => [.right]
  | "up" => [.up]
  | "down" => [.down]
  | "tab" => [.tab]
  | "enter" => [.enter]
  | _ => (line.toList.filter (· != '\n')).map .char

/-- Draws, takes the automatic step, and handles a line once there is one, until the
player quits or the input ends. What is already shown is not drawn again. -/
partial def play (player : Player) (line : Task (Except IO.Error String))
    (shown : List Text) : IO Unit := do
  let drawn := player.settle width height
  let picture := (drawn.picture width height).symbols
  if picture != shown then
    IO.println (String.ofList (CommandLine.printed picture))
  if drawn.quitting then return
  let next := drawn.tick (← IO.monoMsNow)
  if ← IO.hasFinished line then
    match line.get with
    | .error _ | .ok "" => return
    | .ok keys =>
      let now ← IO.monoMsNow
      let next := (keysOf keys).foldl (fun player key => player.press now key) next
      play next (← IO.asTask (← IO.getStdin).getLine) picture
  else
    IO.sleep 50
    play next line picture

/-- Runs the program with its arguments and gives its exit code. -/
def run (arguments : List String) : IO UInt32 := do
  match ← CommandLine.execute world (arguments.map String.toList) with
  | .finished result =>
    (← IO.getStdout).putStr (String.ofList result.stdout)
    (← IO.getStderr).putStr (String.ofList result.stderr)
    return result.code.toUInt32
  | .interactive engine interval =>
    let player := Player.new engine interval (← IO.monoMsNow)
    play player (← IO.asTask (← IO.getStdin).getLine) []
    return 0

end Stepwise.Main

/-- The program. -/
def main (arguments : List String) : IO UInt32 :=
  Stepwise.Main.run arguments
