import Stepwise.Text.Basic

/-!
# TOML documents

A document is a table. Its fields come from keys with values, from table headers and
from dotted keys, and each of these may extend some tables and not others. The origin
of a table decides what may still be added to it.

## Main definitions

* `Stepwise.Toml`, `Stepwise.Toml.Origin` — values, and how a table came to be.
* `Stepwise.Toml.within` — changes the table at the end of a path.
* `Stepwise.Toml.insertKey` — a key with a value.
* `Stepwise.Toml.openTable`, `openElement` — the two kinds of headers.
-/

namespace Stepwise

namespace Toml

/-- How a table came to be. -/
inductive Origin where
  /-- It is a value in braces. -/
  | inline
  /-- A header names it, or it is the document itself. -/
  | header
  /-- The header of a table inside it implies it. -/
  | implied
  /-- A dotted key implies it. -/
  | dotted
  deriving DecidableEq, Repr

end Toml

/-- A value of a document. The settings never look into floats and times. -/
inductive Toml where
  | string (text : Text)
  | integer (n : Int)
  | float
  | boolean (b : Bool)
  | time
  | array (items : List Toml)
  | table (origin : Toml.Origin) (fields : List (Text × Toml))
  /-- The tables that headers in double brackets name, in order. -/
  | tables (elements : List (List (Text × Toml)))

namespace Toml

/-- The fields of a table. -/
abbrev Fields := List (Text × Toml)

/-- The value of a key. -/
def find? (key : Text) (fields : Fields) : Option Toml :=
  (fields.find? fun field => field.1 == key).map Prod.snd

/-- The fields with another value for a key. -/
def replace (key : Text) (value : Toml) (fields : Fields) : Fields :=
  fields.map fun field => if field.1 == key then (key, value) else field

/-- The fields with one more field. -/
def add (key : Text) (value : Toml) (fields : Fields) : Fields :=
  fields ++ [(key, value)]

/-- Changes the table at the end of a path by `change`, which is given its origin and
its fields. Missing tables on the way are made. A dotted key only passes through
tables that are implied; a header passes through all that are not values, and through
the last one of an array of tables. -/
def within (dotted : Bool) (change : Origin → Fields → Option Fields) :
    List Text → Origin → Fields → Option Fields
  | [], origin, fields => change origin fields
  | key :: path, _, fields =>
    match find? key fields with
    | none =>
      let origin := if dotted then Origin.dotted else .implied
      (within dotted change path origin []).map fun inner => add key (.table origin inner) fields
    | some (.table origin inner) =>
      if origin = .inline || (dotted && origin = .header) then none
      else
        (within dotted change path origin inner).map fun inner =>
          replace key (.table origin inner) fields
    | some (.tables elements) =>
      match elements.getLast? with
      | none => none
      | some last =>
        (within dotted change path .header last).map fun inner =>
          replace key (.tables (elements.dropLast ++ [inner])) fields
    | some _ => none

/-- Adds a key to a table. The key must be new, and a dotted key must end in a table
that dotted keys made. -/
def insertKey (path : List Text) (key : Text) (value : Toml) (fields : Fields) :
    Option Fields :=
  within true
    (fun origin inner =>
      if (origin == .dotted) == path.isEmpty then none
      else if (find? key inner).isSome then none
      else some (add key value inner))
    path .header fields

/-- Opens the table that a header names. A table can be named once; it may have been
implied before. -/
def openTable (path : List Text) (key : Text) (fields : Fields) : Option Fields :=
  within false
    (fun _ inner =>
      match find? key inner with
      | none => some (add key (.table .header []) inner)
      | some (.table .implied old) => some (replace key (.table .header old) inner)
      | some _ => none)
    path .header fields

/-- Opens one more table of the array of tables that a header names. -/
def openElement (path : List Text) (key : Text) (fields : Fields) : Option Fields :=
  within false
    (fun _ inner =>
      match find? key inner with
      | none => some (add key (.tables [[]]) inner)
      | some (.tables elements) => some (replace key (.tables (elements ++ [[]])) inner)
      | some _ => none)
    path .header fields

end Toml

end Stepwise
