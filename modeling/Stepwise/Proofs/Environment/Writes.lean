import Mathlib.Data.Finset.Card
import Mathlib.Data.List.Induction
import Stepwise.Proofs.Environment

/-!
# An environment and the writes behind it

An environment that starts empty is changed by writing names and by clearing. What it binds is
told by the writes since the last clearing: it lists each written name once, in the order of the
first writes, and binds it as the last one did.

## Main definitions

* `Stepwise.Environment.Operation` — a change of an environment.
* `Stepwise.Environment.after` — the environment after a sequence of operations.
* `Stepwise.Environment.Write`, `Stepwise.Environment.writes` — what a write says, and the writes
  since the last clearing.
* `Stepwise.Environment.Keeps` — the invariant that ties an environment to these writes.

## Main results

* `Stepwise.Environment.write_eq` — a write answers with the binding that the name had.
* `Stepwise.Environment.Keeps.set`, `Stepwise.Environment.keeps_after` — what one write and what
  any operations keep.
* `Stepwise.Environment.last_writes` — the environment after any operations.
-/

namespace Stepwise.Environment

/-! ### Writing with an answer -/

/-- A write answers with the binding that the name had. -/
theorem write_eq (env : Environment) (name : Text) (value : Value) (constant : Bool) :
    env.write name value constant = (env.get? name, env.set name value constant) :=
  Prod.ext (env.map.insert_fst name _) rfl

/-! ### Operations -/

/-- A change of an environment. -/
inductive Operation where
  | write (name : Text) (value : Value) (constant : Bool)
  /-- All bindings are forgotten. -/
  | clear

/-- The environment after an operation. -/
def perform (env : Environment) : Operation → Environment
  | .write name value constant => (env.write name value constant).2
  | .clear => env.clear

/-- The environment after a sequence of operations, which starts empty. -/
def after (operations : List Operation) : Environment :=
  operations.foldl perform empty

/-- What a write says. -/
structure Write where
  name : Text
  value : Value
  constant : Bool

/-- The writes since the last clearing after one more operation. -/
def Operation.note (written : List Write) : Operation → List Write
  | .write name value constant => written ++ [⟨name, value, constant⟩]
  | .clear => []

/-- The writes since the last clearing, oldest first. -/
def writes (operations : List Operation) : List Write :=
  operations.foldl Operation.note []

/-- The last one of some writes to a name, as a binding. -/
def lastWrite? (written : List Write) (name : Text) : Option Binding :=
  (written.filter fun write => write.name == name).getLast?.map fun write =>
    ⟨name, write.value, write.value.kind, write.constant⟩

/-! ### The invariant -/

/-- The environment binds what was written, in the order of the first writes. -/
structure Keeps (written : List Write) (env : Environment) : Prop where
  nodup : env.names.Nodup
  /-- The written names are listed, and no other. -/
  mem_iff : ∀ name, name ∈ env.names ↔ name ∈ written.map Write.name
  /-- A name is listed before another one if it was first written before it. -/
  ordered : env.names.Pairwise fun a b =>
    (written.map Write.name).idxOf a < (written.map Write.name).idxOf b
  agrees : env.Agrees
  /-- A name is bound as it was last written. -/
  get?_eq : ∀ name, env.get? name = lastWrite? written name

variable {env : Environment} {written : List Write}

theorem keeps_empty : Keeps [] empty where
  nodup := List.nodup_nil
  mem_iff := fun _ => Iff.rfl
  ordered := .nil
  agrees := agrees_empty
  get?_eq := fun _ => rfl

/-- One more write is kept. -/
theorem Keeps.set (h : env.Keeps written) (name : Text) (value : Value) (constant : Bool) :
    (env.set name value constant).Keeps (written ++ [⟨name, value, constant⟩]) where
  nodup := nodup_names_set h.nodup name value constant
  mem_iff := by
    intro other
    rw [names_set, List.map_append, List.map_singleton, List.mem_append, ← h.mem_iff]
    split
    · rename_i hmem
      constructor
      · exact .inl
      · rintro (hother | hother)
        · exact hother
        · rwa [List.mem_singleton.1 hother]
    · exact List.mem_append
  ordered := by
    rw [List.map_append, List.map_singleton, names_set]
    have hstays : ∀ other ∈ env.names, (written.map Write.name ++ [name]).idxOf other =
        (written.map Write.name).idxOf other := fun other hother =>
      List.idxOf_append_of_mem ((h.mem_iff other).1 hother)
    have hold : env.names.Pairwise fun a b => (written.map Write.name ++ [name]).idxOf a <
        (written.map Write.name ++ [name]).idxOf b := by
      refine h.ordered.imp_of_mem fun ha hb hlt => ?_
      rwa [hstays _ ha, hstays _ hb]
    split
    · exact hold
    · rename_i hnew
      refine List.pairwise_append.2 ⟨hold, List.pairwise_singleton _ _, fun a ha b hb => ?_⟩
      rw [List.mem_singleton.1 hb, hstays a ha,
        List.idxOf_append_of_notMem (mt (h.mem_iff name).2 hnew)]
      exact Nat.lt_add_right _ (List.idxOf_lt_length_iff.2 ((h.mem_iff a).1 ha))
  agrees := h.agrees.set name value constant
  get?_eq := by
    intro other
    by_cases hother : other = name
    · subst hother
      rw [get?_set_self]
      simp [lastWrite?]
    · rw [get?_set_of_ne env value constant hother, h.get?_eq]
      simp [lastWrite?, Ne.symm hother]

theorem Keeps.perform (h : env.Keeps written) (operation : Operation) :
    (env.perform operation).Keeps (operation.note written) := by
  cases operation with
  | write name value constant =>
    rw [Environment.perform, write_eq]
    exact h.set name value constant
  | clear => exact keeps_empty

/-- An environment keeps what was written since the last clearing. -/
theorem keeps_after (operations : List Operation) :
    (after operations).Keeps (writes operations) := by
  induction operations using List.reverseRecOn with
  | nil => exact keeps_empty
  | append_singleton operations operation ih =>
    rw [after, writes, List.foldl_append, List.foldl_append]
    exact ih.perform operation

theorem Keeps.size_eq (h : env.Keeps written) :
    env.size = (written.map Write.name).toFinset.card := by
  have hnames : env.names.toFinset = (written.map Write.name).toFinset :=
    Finset.ext fun name => by rw [List.mem_toFinset, List.mem_toFinset, h.mem_iff]
  rw [← hnames, List.toFinset_card_of_nodup h.nodup, names, OrderedMap.keys, List.length_map]
  rfl

/-! ### Any operations -/

/-- A write keeps the names listed so far in their order. -/
theorem names_isPrefixOf_set (env : Environment) (name : Text) (value : Value) (constant : Bool) :
    env.names <+: (env.set name value constant).names := by
  rw [names_set]
  split
  · exact List.prefix_rfl
  · exact List.prefix_append _ _

/-- An environment is an ordered map in which the last write counts. After any operations it
lists the names written since the last clearing, each once and in the order of the first writes,
and each listed binding stands under its own name. A name is bound as it was last written, under
that name and with the kind of its value, and a name that was not written is not bound. A write
answers with the binding that the name had, binds the name, and leaves the bindings of all other
names and the order of the names as they are. The size is the number of different names
written. -/
theorem last_writes (operations : List Operation) :
    let env := after operations
    let written := (writes operations).map Write.name
    let listed := env.bindings.map Binding.name
    (listed = env.names ∧ listed.Nodup ∧ (∀ name, name ∈ listed ↔ name ∈ written) ∧
      (listed.Pairwise fun a b => written.idxOf a < written.idxOf b) ∧
      ∀ binding ∈ env.bindings, env.get? binding.name = some binding) ∧
    (∀ name, env.get? name = lastWrite? (writes operations) name) ∧
    (∀ name binding, env.get? name = some binding →
      binding.name = name ∧ binding.kind = binding.value.kind) ∧
    (∀ name value constant, (env.write name value constant).1 = env.get? name ∧
      (env.write name value constant).2.get? name =
        some ⟨name, value, value.kind, constant⟩ ∧
      (∀ other ≠ name, (env.write name value constant).2.get? other = env.get? other) ∧
      env.names <+: (env.write name value constant).2.names) ∧
    env.size = written.toFinset.card := by
  intro env written listed
  have h : env.Keeps (writes operations) := keeps_after operations
  have hlisted : listed = env.names := h.agrees.map_name_bindings
  refine ⟨?_, h.get?_eq, ?_, ?_, h.size_eq⟩
  · rw [hlisted]
    exact ⟨rfl, h.nodup, h.mem_iff, h.ordered, fun _ => h.agrees.get?_name h.nodup⟩
  · intro name binding hget
    exact h.agrees.of_get? hget
  · intro name value constant
    rw [write_eq]
    exact ⟨rfl, get?_set_self _ name value constant,
      fun other hne => get?_set_of_ne _ value constant hne,
      names_isPrefixOf_set _ name value constant⟩

/-- A name written before a clearing is forgotten, and a name written twice keeps its place: the
second write answers with the first one and leaves the other name alone. -/
theorem last_writes_rewritten :
    let operations : List Operation := [.write ['x'] .undefined false, .clear,
      .write ['b'] .null false, .write ['a'] (.bool true) true]
    let env := after operations
    env.bindings.map Binding.name = [['b'], ['a']] ∧ env.get? ['x'] = none ∧
      (⟨['b'], .null, .null, false⟩ : Binding) ∈ env.bindings ∧
      env.get? ['b'] = some ⟨['b'], .null, .null, false⟩ ∧
      (env.write ['b'] (.str "é".toList) false).1 = some ⟨['b'], .null, .null, false⟩ ∧
      (env.write ['b'] (.str "é".toList) false).2.get? ['b'] =
        some ⟨['b'], .str "é".toList, .string, false⟩ ∧
      ['a'] ≠ ['b'] ∧ (env.write ['b'] (.str "é".toList) false).2.get? ['a'] = env.get? ['a'] ∧
      env.size = ([['b'], ['a']] : List Text).toFinset.card := by
  intro operations env
  obtain ⟨⟨-, -, -, -, hlisted⟩, hget, -, hwrite, hsize⟩ := last_writes operations
  have hmem : (⟨['b'], .null, .null, false⟩ : Binding) ∈ env.bindings := List.mem_cons_self
  have hbound : env.get? ['b'] = some ⟨['b'], .null, .null, false⟩ := hlisted _ hmem
  have hne : ['a'] ≠ ['b'] := by decide
  obtain ⟨hanswer, hwritten, hothers, -⟩ := hwrite ['b'] (.str "é".toList) false
  exact ⟨rfl, hget ['x'], hmem, hbound, hanswer.trans hbound, hwritten, hne, hothers ['a'] hne,
    hsize⟩

end Stepwise.Environment
