import Stepwise.OrderedMap
import Stepwise.Value

/-!
# Environments

An environment binds names to values. It lists its bindings in the order in which
their names were first written, and a later write keeps the place.

## Main definitions

* `Stepwise.Binding` — a name, its value with the kind it had, and whether it is constant.
* `Stepwise.Environment` — the bindings under their names.
* `Stepwise.Environment.write` — writing a name; the answer is the binding that was replaced.
* `Stepwise.Environment.set`, `clear`, `get?`, `valueOf?`, `numberOf?`, `isConstant`.
-/

namespace Stepwise

/-- A name with its value. The kind is stored apart from the value. -/
structure Binding where
  name : Text
  value : Value
  /-- The kind of the value at the last write. -/
  kind : Value.Kind
  /-- The name was declared as a constant. -/
  constant : Bool

/-- The bindings, each under the name that was written. -/
structure Environment where
  map : OrderedMap Binding := {}
  deriving Inhabited

namespace Environment

/-- The environment without bindings. -/
def empty : Environment := {}

/-- The binding of a name. -/
def get? (env : Environment) (name : Text) : Option Binding :=
  env.map.get? name

/-- The value of a name. -/
def valueOf? (env : Environment) (name : Text) : Option Value :=
  (env.get? name).map Binding.value

/-- The number bound to a name. -/
def numberOf? (env : Environment) (name : Text) : Option Float :=
  (env.valueOf? name).bind Value.number?

/-- The name is bound as a constant. -/
def isConstant (env : Environment) (name : Text) : Bool :=
  (env.get? name).any Binding.constant

/-- Writes a name and gives back the binding that it had before. -/
def write (env : Environment) (name : Text) (value : Value) (constant : Bool) :
    Option Binding × Environment :=
  let (replaced, map) := env.map.insert name { name, value, kind := value.kind, constant }
  (replaced, ⟨map⟩)

/-- The environment after a name was written. -/
def set (env : Environment) (name : Text) (value : Value) (constant : Bool) : Environment :=
  (env.write name value constant).2

/-- Forgets all bindings. -/
def clear (env : Environment) : Environment :=
  { env with map := env.map.clear }

/-- The bindings in order. -/
def bindings (env : Environment) : List Binding :=
  env.map.values

/-- The bound names in order. -/
def names (env : Environment) : List Text :=
  env.map.keys

/-- The number of bound names. -/
def size (env : Environment) : Nat :=
  env.map.size

/-! ### Reading after writing -/

/-- A name just written has the binding that was written. -/
@[simp] theorem get?_set_self (env : Environment) (name : Text) (value : Value)
    (constant : Bool) :
    (env.set name value constant).get? name = some ⟨name, value, value.kind, constant⟩ :=
  env.map.get?_insert_self name _

/-- Writing a name leaves the other names alone. -/
theorem get?_set_of_ne (env : Environment) {name other : Text} (value : Value)
    (constant : Bool) (h : other ≠ name) :
    (env.set name value constant).get? other = env.get? other :=
  env.map.get?_insert_of_ne _ h

end Environment

end Stepwise
