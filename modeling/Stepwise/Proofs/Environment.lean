import Mathlib.Data.List.Basic
import Stepwise.Environment
import Stepwise.Proofs.Json.Sameness

/-!
# Environments made by writes

In an environment made by writes, no name is bound twice, every binding stands under its own
name with the kind of its value, and every value is the same as itself. So a binding compared
with its own environment shows no change.

## Main definitions

* `Stepwise.Value.Same` — the equality of values by which changes are marked.
* `Stepwise.Environment.Agrees` — bindings stand under their names and have the kinds of their
  values.
* `Stepwise.Environment.Proper` — names are distinct, bindings agree with them, and values are
  the same as themselves.

## Main results

* `Stepwise.Environment.Proper.set` — writing keeps an environment proper.
* `Stepwise.Environment.Proper.valueOf?_eq` — each binding is the one found by its name.
-/

namespace Stepwise

/-! ### Values -/

/-- Only a document can differ from itself. -/
theorem Value.sameAs_self {value : Value}
    (h : ∀ json, value = .structured json → json.sameAs json = true) :
    value.sameAs value = true := by
  cases value with
  | number x =>
    cases hnan : x.isNaN with
    | true =>
      change (_ || (x.isNaN && x.isNaN)) = true
      rw [hnan, Bool.and_self, Bool.or_true]
    | false =>
      change ((x == x) || _) = true
      rw [Double.beq_self hnan, Bool.true_or]
  | structured json => exact h json rfl
  | str | bool | symbolic | unresolved => simp [sameAs]
  | null | undefined => rfl

/-- Two values are the same: they are of the same kind and have the same contents, where
every `NaN` counts as the same number. -/
inductive Value.Same : Value → Value → Prop
  | number {x y : Float} (h : (x == y) = true) : Same (.number x) (.number y)
  | nan {x y : Float} (hx : x.isNaN = true) (hy : y.isNaN = true) : Same (.number x) (.number y)
  | str (text : Text) : Same (.str text) (.str text)
  | bool (b : Bool) : Same (.bool b) (.bool b)
  | null : Same .null .null
  | undefined : Same .undefined .undefined
  | structured {a b : Json} (h : a.sameAs b = true) : Same (.structured a) (.structured b)
  | symbolic (text : Text) : Same (.symbolic text) (.symbolic text)
  | unresolved (name : Text) : Same (.unresolved name) (.unresolved name)

/-- The comparison of values decides whether they are the same. -/
theorem Value.sameAs_iff (a b : Value) : a.sameAs b = true ↔ a.Same b := by
  constructor
  · intro h
    -- Values of different kinds compare as different, which leaves one case for each kind.
    cases a <;> cases b <;> simp only [sameAs, Bool.false_eq_true] at h
    case number.number x y =>
      rcases Bool.or_eq_true_iff.1 h with heq | hnan
      · exact .number heq
      · rw [Bool.and_eq_true] at hnan
        exact .nan hnan.1 hnan.2
    case structured.structured => exact .structured h
    case null.null => exact .null
    case undefined.undefined => exact .undefined
    case str.str => exact eq_of_beq h ▸ .str _
    case bool.bool => exact eq_of_beq h ▸ .bool _
    case symbolic.symbolic => exact eq_of_beq h ▸ .symbolic _
    case unresolved.unresolved => exact eq_of_beq h ▸ .unresolved _
  · intro h
    cases h with
    | number h => simp [sameAs, h]
    | nan hx hy => rw [sameAs, hx, hy, Bool.and_self, Bool.or_true]
    | structured h => exact h
    | str | bool | symbolic | unresolved => simp [sameAs]
    | null | undefined => rfl

namespace Environment

/-! ### Names -/

theorem names_set (env : Environment) (name : Text) (value : Value) (constant : Bool) :
    (env.set name value constant).names =
      if name ∈ env.names then env.names else env.names ++ [name] :=
  env.map.keys_insert name _

/-- A write keeps the names distinct. -/
theorem nodup_names_set {env : Environment} (h : env.names.Nodup) (name : Text) (value : Value)
    (constant : Bool) : (env.set name value constant).names.Nodup := by
  rw [names_set]
  split
  · exact h
  · rename_i hnew
    rw [List.nodup_append]
    refine ⟨h, List.pairwise_singleton _ name, ?_⟩
    intro other hother name' hname' heq
    rw [List.mem_singleton] at hname'
    exact hnew (hname' ▸ heq ▸ hother)

theorem mem_of_mem_set {env : Environment} {name : Text} {value : Value} {constant : Bool}
    {entry : Text × Binding} (h : entry ∈ (env.set name value constant).map.entries) :
    entry = (name, ⟨name, value, value.kind, constant⟩) ∨ entry ∈ env.map.entries :=
  OrderedMap.mem_of_mem_insert h

/-! ### Bindings and their names -/

/-- Every binding stands under its own name and has the kind of its value. -/
def Agrees (env : Environment) : Prop :=
  ∀ entry ∈ env.map.entries, entry.2.name = entry.1 ∧ entry.2.kind = entry.2.value.kind

theorem agrees_empty : empty.Agrees :=
  fun _ h => absurd h List.not_mem_nil

theorem Agrees.set {env : Environment} (h : env.Agrees) (name : Text) (value : Value)
    (constant : Bool) : (env.set name value constant).Agrees := by
  intro entry hmem
  rcases mem_of_mem_set hmem with rfl | hold
  · exact ⟨rfl, rfl⟩
  · exact h entry hold

theorem Agrees.of_get? {env : Environment} (h : env.Agrees) {name : Text} {binding : Binding}
    (hget : env.get? name = some binding) :
    binding.name = name ∧ binding.kind = binding.value.kind :=
  h _ (OrderedMap.mem_entries_of_get? hget)

theorem Agrees.map_name_bindings {env : Environment} (h : env.Agrees) :
    env.bindings.map Binding.name = env.names := by
  rw [bindings, OrderedMap.values, List.map_map, names, OrderedMap.keys]
  exact List.map_congr_left fun entry hmem => (h entry hmem).1

theorem Agrees.get?_name {env : Environment} (h : env.Agrees) (hnodup : env.names.Nodup)
    {binding : Binding} (hmem : binding ∈ env.bindings) :
    env.get? binding.name = some binding := by
  obtain ⟨⟨name, _⟩, hentry, rfl⟩ := List.mem_map.1 hmem
  rw [(h _ hentry).1]
  exact OrderedMap.get?_of_mem hnodup hentry

/-! ### Numbers -/

theorem numberOf?_set_self (env : Environment) (name : Text) (value : Value) (constant : Bool) :
    (env.set name value constant).numberOf? name = value.number? := by
  rw [numberOf?, valueOf?, get?_set_self]
  rfl

theorem numberOf?_set_of_ne (env : Environment) {name other : Text} (value : Value)
    (constant : Bool) (h : other ≠ name) :
    (env.set name value constant).numberOf? other = env.numberOf? other := by
  rw [numberOf?, valueOf?, get?_set_of_ne env value constant h]
  rfl

/-! ### Proper environments -/

/-- No name is bound twice, bindings agree with their names, and every value is the same as
itself. -/
structure Proper (env : Environment) : Prop where
  nodup : env.names.Nodup
  agrees : env.Agrees
  same : ∀ binding ∈ env.bindings, binding.value.sameAs binding.value = true

theorem proper_empty : empty.Proper where
  nodup := List.nodup_nil
  agrees := agrees_empty
  same := fun _ h => absurd h List.not_mem_nil

/-- Writing a value that is the same as itself keeps an environment proper. -/
theorem Proper.set {env : Environment} (h : env.Proper) (name : Text) {value : Value}
    (constant : Bool) (hvalue : value.sameAs value = true) :
    (env.set name value constant).Proper where
  nodup := nodup_names_set h.nodup name value constant
  agrees := h.agrees.set name value constant
  same := by
    intro binding hmem
    obtain ⟨entry, hentry, rfl⟩ := List.mem_map.1 hmem
    rcases mem_of_mem_set hentry with rfl | hold
    · exact hvalue
    · exact h.same _ (List.mem_map_of_mem hold)

/-- The value found by the name of a binding is its value. -/
theorem Proper.valueOf?_eq {env : Environment} (h : env.Proper) {binding : Binding}
    (hmem : binding ∈ env.bindings) : env.valueOf? binding.name = some binding.value := by
  rw [valueOf?, h.agrees.get?_name h.nodup hmem]
  rfl

theorem Proper.sameAs_of_valueOf? {env : Environment} (h : env.Proper) {name : Text}
    {value : Value} (hvalue : env.valueOf? name = some value) : value.sameAs value = true := by
  obtain ⟨binding, hget, rfl⟩ := Option.map_eq_some_iff.1 hvalue
  exact h.same binding (List.mem_map_of_mem (OrderedMap.mem_entries_of_get? hget))

end Environment

end Stepwise
