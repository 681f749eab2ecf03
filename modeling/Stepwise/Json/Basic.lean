import Stepwise.Text.Basic

/-!
# JSON values

## Main definitions

* `Stepwise.Json` — JSON values. Integers and doubles are different numbers, and an
  object is the list of its fields in the order in which they are written.
* `Stepwise.Json.sameAs` — equality, with doubles compared by number.
* `Stepwise.Json.insertField` — a field put into a list sorted by key.
-/

namespace Stepwise

/-- A JSON value. -/
inductive Json where
  | null
  | bool (b : Bool)
  | int (n : Int)
  | double (x : Float)
  | str (text : Text)
  | arr (items : List Json)
  | obj (fields : List (Text × Json))
  deriving Inhabited

namespace Json

/-! ### Equality -/

mutual

/-- Equality of JSON values: an integer never equals a double, and two doubles are
equal when they are the same number. -/
def sameAs : Json → Json → Bool
  | .null, .null => true
  | .bool a, .bool b => a == b
  | .int a, .int b => a == b
  | .double a, .double b => a == b
  | .str a, .str b => a == b
  | .arr a, .arr b => sameItems a b
  | .obj a, .obj b => sameFields a b
  | _, _ => false

/-- Equality of arrays, item by item. -/
def sameItems : List Json → List Json → Bool
  | [], [] => true
  | a :: as, b :: bs => sameAs a b && sameItems as bs
  | _, _ => false

/-- Equality of objects, field by field. -/
def sameFields : List (Text × Json) → List (Text × Json) → Bool
  | [], [] => true
  | (k, a) :: as, (l, b) :: bs => k == l && sameAs a b && sameFields as bs
  | _, _ => false

end

/-! ### Objects sorted by key -/

/-- Puts a field into a list sorted by key; a field with the same key is replaced. -/
def insertField (key : Text) (value : Json) : List (Text × Json) → List (Text × Json)
  | [] => [(key, value)]
  | (k, v) :: fields =>
    if key = k then (key, value) :: fields
    else if key < k then (key, value) :: (k, v) :: fields
    else (k, v) :: insertField key value fields

/-- The object with the given fields, sorted by key; of two fields with one key the
later one stays. -/
def ofFields (fields : List (Text × Json)) : Json :=
  .obj (fields.foldl (fun sorted field => insertField field.1 field.2 sorted) [])

end Json

end Stepwise
