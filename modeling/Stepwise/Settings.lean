import Stepwise.Engine.Basic
import Stepwise.Toml.Document

/-!
# Settings

Settings come from a TOML document. Every one of them has a default, and keys that no
setting has are left out of account.

## Main definitions

* `Stepwise.Settings` — all settings.
* `Stepwise.Settings.parse?` — the settings that a document makes.
-/

namespace Stepwise

/-- All settings. -/
structure Settings where
  engine : EngineSettings := {}
  /-- The time between automatic steps in milliseconds. -/
  interval : Nat := 1000
  deriving DecidableEq, Repr

namespace Settings

/-- A natural number. -/
def natOf? : Toml → Option Nat
  | .integer (.ofNat n) => some n
  | _ => none

/-- A text. -/
def textOf? : Toml → Option Text
  | .string text => some text
  | _ => none

/-- The value of a setting: the default where there is none. -/
def orDefault {α : Type} (read : Toml → Option α) (default : α) : Option Toml → Option α
  | none => some default
  | some value => read value

/-- How a section finds its settings: by name, or by their place in an array. A time
has none of them. -/
def lookup? : Toml → Option (Text → Nat → Option Toml)
  | .table _ fields => some fun key _ => Toml.find? key fields
  | .array items => some fun _ place => items[place]?
  | .tables elements => some fun _ place => elements[place]?.map (.table .header)
  | .time => some fun _ _ => none
  | _ => none

/-- The settings of the engine. -/
def engineOf? : Option Toml → Option EngineSettings
  | none => some {}
  | some section_ => do
    let get ← lookup? section_
    let maxSteps ← orDefault (fun v => (natOf? v).map some) none (get "max_steps".toList 0)
    let initialFrame ← orDefault textOf? ({} : EngineSettings).initialFrame
      (get "initial_frame".toList 1)
    some { maxSteps, initialFrame }

/-- The time between automatic steps. -/
def intervalOf? : Option Toml → Option Nat
  | none => some ({} : Settings).interval
  | some section_ => do
    let get ← lookup? section_
    orDefault natOf? ({} : Settings).interval (get "interval_ms".toList 0)

/-- The settings that a document makes. -/
def parse? (text : Text) : Option Settings := do
  let fields ← Toml.parse? text
  let engine ← engineOf? (Toml.find? "engine".toList fields)
  let interval ← intervalOf? (Toml.find? "playback".toList fields)
  some { engine, interval }

end Settings

end Stepwise
