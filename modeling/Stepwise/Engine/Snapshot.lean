import Stepwise.Engine.State
import Stepwise.Json.Basic

/-!
# Snapshots

A snapshot is what a state shows: a view of everything in it, with the bindings
marked that changed since an earlier environment.

## Main definitions

* `Stepwise.BindingView` — a variable as shown.
* `Stepwise.Snapshot`, `Stepwise.Snapshot.capture` — what a state shows.
* `Stepwise.Snapshot.toJson` — a snapshot as a JSON document.
-/

namespace Stepwise

/-- A variable as shown. -/
structure BindingView where
  name : Text
  value : Value
  /-- The kind that the binding stores. -/
  kind : Value.Kind
  display : Text
  /-- The variable is new or has another value than before. -/
  changed : Bool

/-- What a state shows. -/
structure Snapshot where
  /-- The number of the line executed last, zero before the first step. -/
  currentLine : Nat
  /-- The variables in order. -/
  bindings : List BindingView
  /-- The names of the open calls. -/
  callStack : List Text
  /-- What has happened. -/
  history : List Timeline.Entry
  /-- The printed lines. -/
  output : List Text
  /-- The report of the failed step. -/
  error : Option Text
  loops : List Loop.Tracker
  status : Status
  /-- How many steps succeeded. -/
  stepsTaken : Nat

namespace Snapshot

/-- A binding differs from the environment before: its name was unbound there or had
another value. -/
def differs (previous : Environment) (binding : Binding) : Bool :=
  match previous.valueOf? binding.name with
  | some old => !old.sameAs binding.value
  | none => true

/-- What a state shows. The variables that differ from `previous` are marked; without
a previous environment none is. -/
def capture (state : State) (previous : Option Environment) : Snapshot where
  currentLine := state.currentLine
  bindings := state.environment.bindings.map fun binding =>
    { name := binding.name
      value := binding.value
      kind := binding.kind
      display := binding.value.display
      changed := previous.any fun env => differs env binding }
  callStack := state.callStack
  history := state.timeline.entries
  output := state.console
  error := state.error
  loops := state.loops.trackers
  status := state.status
  stepsTaken := state.stepsTaken

/-- The run has reached the end of the program. -/
def isComplete (snapshot : Snapshot) : Bool :=
  snapshot.status == .complete

/-- The variable with the given name. -/
def find? (snapshot : Snapshot) (name : Text) : Option BindingView :=
  snapshot.bindings.find? fun view => view.name == name

/-- The trackers that still follow their variable. -/
def activeLoops (snapshot : Snapshot) : List Loop.Tracker :=
  snapshot.loops.filter Loop.Tracker.active

/-! ### Documents -/

/-- A value as a document with its type and, where it has any, its contents. -/
def valueJson (value : Value) : Json :=
  let tagged (type : String) (content : Json) : Json :=
    .obj [("type".toList, .str type.toList), ("value".toList, content)]
  match value with
  | .number x => tagged "number" (.double x)
  | .str text => tagged "string" (.str text)
  | .bool b => tagged "boolean" (.bool b)
  | .null => .obj [("type".toList, .str "null".toList)]
  | .undefined => .obj [("type".toList, .str "undefined".toList)]
  | .structured json => tagged "structured" json
  | .symbolic text => tagged "symbolic" (.str text)
  | .unresolved name => tagged "unresolved" (.str name)

/-- A variable as a document. -/
def bindingJson (view : BindingView) : Json :=
  .obj [
    ("name".toList, .str view.name),
    ("value".toList, valueJson view.value),
    ("declared_type".toList, .str view.kind.label),
    ("display".toList, .str view.display),
    ("changed".toList, .bool view.changed)]

/-- An entry of the timeline as a document. -/
def entryJson (entry : Timeline.Entry) : Json :=
  .obj [
    ("line".toList, .int entry.line),
    ("description".toList, .str entry.description),
    ("timestamp".toList, .int entry.timestamp),
    ("kind".toList, .str entry.kind.label)]

/-- A loop tracker as a document. -/
def trackerJson (tracker : Loop.Tracker) : Json :=
  .obj [
    ("id".toList, .str tracker.id),
    ("controlling_variable".toList, .str tracker.variableName),
    ("current_value".toList, .double tracker.current),
    ("bound_value".toList, .double tracker.bound),
    ("iteration_history".toList, .arr (tracker.history.map .double)),
    ("is_active".toList, .bool tracker.active),
    ("header_line".toList, .int tracker.line)]

/-- A snapshot as a document. -/
def toJson (snapshot : Snapshot) : Json :=
  .obj [
    ("current_line".toList, .int snapshot.currentLine),
    ("variables".toList, .arr (snapshot.bindings.map bindingJson)),
    ("call_stack".toList, .arr (snapshot.callStack.map .str)),
    ("history".toList, .arr (snapshot.history.map entryJson)),
    ("output".toList, .arr (snapshot.output.map .str)),
    ("error".toList, match snapshot.error with
      | some report => .str report
      | none => .null),
    ("is_complete".toList, .bool snapshot.isComplete),
    ("loops".toList, .arr (snapshot.loops.map trackerJson)),
    ("status".toList, .str snapshot.status.label),
    ("steps_taken".toList, .int snapshot.stepsTaken)]

end Snapshot

end Stepwise
