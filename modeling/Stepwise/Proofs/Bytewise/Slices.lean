import Stepwise.Proofs.Text.Items

/-!
# Slices by byte positions

A text can be cut between its characters only. A slice is asked for by two byte positions, and it
is a fault to ask for one that starts or ends inside a character, behind the end of the text, or
before its own start. Computations with byte positions stop at the first fault.

## Main definitions

* `Stepwise.Bytewise.Fault`, `Stepwise.Bytewise.Checked` — computations that can come to a fault.
* `Stepwise.Bytewise.slice`, `sliceTo`, `sliceFrom` — the part of a text between two positions.
* `Stepwise.Bytewise.indices` — the characters of a text with their positions.
* `Stepwise.Bytewise.find?`, `findLast?` — where a character of some class stands.

## Main results

* `Stepwise.Bytewise.slice_eq_ok_iff` — what a slice is.
* `Stepwise.Bytewise.exists_slice_iff` — which slices there are.
-/

namespace Stepwise.Bytewise

open Text (IsBoundary byteLength)

variable {text s t part : Text} {c : Char} {place start stop : Nat}

/-- What can go wrong in a computation with byte positions. -/
inductive Fault where
  /-- A slice was asked for at positions that do not delimit one. -/
  | slice
  /-- A number was to be taken below zero. -/
  | underflow
  /-- A list was read at a position that it does not have. -/
  | index
  /-- A loop was not through after the rounds that it was allowed. -/
  | rounds
  deriving DecidableEq, Repr

/-- Computations with byte positions, which stop at the first fault. -/
abbrev Checked : Type → Type := Except Fault

@[simp] theorem ok_bind {α β : Type} (a : α) (f : α → Checked β) :
    (Except.ok a : Checked α) >>= f = f a := rfl

/-- The difference of two numbers, which may not be negative. -/
def minus (a b : Nat) : Checked Nat :=
  if b ≤ a then .ok (a - b) else .error .underflow

/-! ### Cutting -/

/-- The parts of a text before and behind a byte position, if it lies between characters. -/
def cutAt? : Nat → Text → Option (Text × Text)
  | 0, text => some ([], text)
  | _ + 1, [] => none
  | place + 1, c :: text =>
    if c.utf8Size ≤ place + 1 then
      (cutAt? (place + 1 - c.utf8Size) text).map fun (s, t) => (c :: s, t)
    else none

/-- The part of a text from one byte position to another. -/
def slice (text : Text) (start stop : Nat) : Checked Text :=
  match cutAt? stop text with
  | none => .error .slice
  | some (front, _) =>
    match cutAt? start front with
    | none => .error .slice
    | some (_, part) => .ok part

/-- The part of a text before a byte position. -/
def sliceTo (text : Text) (stop : Nat) : Checked Text :=
  slice text 0 stop

/-- The part of a text from a byte position on. -/
def sliceFrom (text : Text) (start : Nat) : Checked Text :=
  slice text start (byteLength text)

theorem byteLength_eq_zero_iff : byteLength t = 0 ↔ t = [] := by
  cases t with
  | nil => simp
  | cons c t =>
    have := Text.byteLength_cons_pos c t
    simp only [reduceCtorEq, iff_false]
    omega

theorem cutAt?_eq_some_iff :
    cutAt? place text = some (s, t) ↔ text = s ++ t ∧ place = byteLength s := by
  induction text generalizing place s with
  | nil =>
    cases place with
    | zero =>
      simp only [cutAt?, Option.some.injEq, Prod.mk.injEq, List.nil_eq, List.append_eq_nil_iff]
      constructor
      · rintro ⟨rfl, rfl⟩
        exact ⟨⟨rfl, rfl⟩, rfl⟩
      · rintro ⟨⟨rfl, rfl⟩, -⟩
        exact ⟨rfl, rfl⟩
    | succ place =>
      simp only [cutAt?, reduceCtorEq, List.nil_eq, List.append_eq_nil_iff, false_iff]
      rintro ⟨⟨rfl, -⟩, hplace⟩
      cases hplace
  | cons c text ih =>
    have hc := c.utf8Size_pos
    cases place with
    | zero =>
      simp only [cutAt?, Option.some.injEq, Prod.mk.injEq]
      constructor
      · rintro ⟨rfl, rfl⟩
        exact ⟨rfl, rfl⟩
      · rintro ⟨htext, hzero⟩
        obtain rfl := byteLength_eq_zero_iff.1 hzero.symm
        exact ⟨rfl, htext⟩
    | succ place =>
      simp only [cutAt?]
      constructor
      · intro h
        split at h
        · obtain ⟨⟨s', t'⟩, hcut, heq⟩ := Option.map_eq_some_iff.1 h
          simp only [Prod.mk.injEq] at heq
          obtain ⟨rfl, rfl⟩ := heq
          obtain ⟨rfl, hplace⟩ := ih.1 hcut
          exact ⟨rfl, by rw [Text.byteLength_cons]; omega⟩
        · cases h
      · rintro ⟨htext, hplace⟩
        cases s with
        | nil => cases hplace
        | cons d s =>
          obtain ⟨rfl, rfl⟩ := List.cons.inj htext
          rw [Text.byteLength_cons] at hplace
          rw [if_pos (by omega), ih.2 ⟨rfl, by omega⟩]
          rfl

/-! ### Slices -/

/-- A slice is the part of the text between what stands before its start and what stands behind
its end. -/
theorem slice_eq_ok_iff :
    slice text start stop = .ok part ↔ ∃ s t, text = s ++ (part ++ t) ∧
      start = byteLength s ∧ stop = byteLength s + byteLength part := by
  constructor
  · intro h
    rw [slice] at h
    split at h
    · cases h
    rename_i front t hstop
    split at h
    · cases h
    rename_i s part' hstart
    cases h
    obtain ⟨rfl, rfl⟩ := cutAt?_eq_some_iff.1 hstop
    obtain ⟨rfl, rfl⟩ := cutAt?_eq_some_iff.1 hstart
    exact ⟨s, t, List.append_assoc _ _ _, rfl, Text.byteLength_append _ _⟩
  · rintro ⟨s, t, rfl, rfl, rfl⟩
    have hstop : cutAt? (byteLength s + byteLength part) (s ++ (part ++ t)) =
        some (s ++ part, t) :=
      cutAt?_eq_some_iff.2 ⟨(List.append_assoc _ _ _).symm, (Text.byteLength_append _ _).symm⟩
    have hstart : cutAt? (byteLength s) (s ++ part) = some (s, part) :=
      cutAt?_eq_some_iff.2 ⟨rfl, rfl⟩
    simp only [slice, hstop, hstart]

theorem slice_append (s part t : Text) :
    slice (s ++ (part ++ t)) (byteLength s) (byteLength s + byteLength part) = .ok part :=
  slice_eq_ok_iff.2 ⟨s, t, rfl, rfl, rfl⟩

theorem sliceTo_append (s t : Text) : sliceTo (s ++ t) (byteLength s) = .ok s :=
  slice_eq_ok_iff.2 ⟨[], t, rfl, rfl, (Nat.zero_add _).symm⟩

theorem sliceFrom_append (s t : Text) : sliceFrom (s ++ t) (byteLength s) = .ok t :=
  slice_eq_ok_iff.2 ⟨s, [], by rw [List.append_nil], rfl, Text.byteLength_append s t⟩

/-- Of two leading parts of a text the one with fewer bytes is a leading part of the other. -/
theorem exists_append_of_byteLength_le {s' t' : Text} (h : s ++ t = s' ++ t')
    (hle : byteLength s ≤ byteLength s') : ∃ part, s' = s ++ part ∧ t = part ++ t' := by
  rcases List.append_eq_append_iff.1 h with ⟨part, rfl, rfl⟩ | ⟨part, rfl, rfl⟩
  · exact ⟨part, rfl, rfl⟩
  · rw [Text.byteLength_append] at hle
    obtain rfl := byteLength_eq_zero_iff.1 (show byteLength part = 0 by omega)
    exact ⟨[], by simp, by simp⟩

/-- There is a slice between two positions exactly if they lie between characters, the first one
not behind the second. -/
theorem exists_slice_iff :
    (∃ part, slice text start stop = .ok part) ↔
      start ≤ stop ∧ IsBoundary text start ∧ IsBoundary text stop := by
  constructor
  · rintro ⟨part, h⟩
    obtain ⟨s, t, rfl, rfl, rfl⟩ := slice_eq_ok_iff.1 h
    refine ⟨Nat.le_add_right _ _, ⟨s, part ++ t, rfl, rfl⟩, ⟨s ++ part, t, ?_, ?_⟩⟩
    · rw [List.append_assoc]
    · rw [Text.byteLength_append]
  · rintro ⟨hle, ⟨s, t, rfl, rfl⟩, ⟨s', t', heq, rfl⟩⟩
    obtain ⟨part, rfl, rfl⟩ := exists_append_of_byteLength_le heq hle
    rw [Text.byteLength_append]
    exact ⟨part, slice_append s part t'⟩

/-! ### Characters and their positions -/

/-- The characters of a text with their byte positions, the first of which is `place`. -/
def indicesFrom (place : Nat) : Text → List (Nat × Char)
  | [] => []
  | c :: text => (place, c) :: indicesFrom (place + c.utf8Size) text

/-- The characters of a text with their byte positions. -/
def indices (text : Text) : List (Nat × Char) :=
  indicesFrom 0 text

/-- The byte position of the first character of a class. -/
def find? (p : Char → Bool) (text : Text) : Option Nat :=
  ((indices text).find? fun item => p item.2).map Prod.fst

/-- The byte position of the last character of a class. -/
def findLast? (p : Char → Bool) (text : Text) : Option Nat :=
  ((indices text).reverse.find? fun item => p item.2).map Prod.fst

theorem indicesFrom_append (place : Nat) (s t : Text) :
    indicesFrom place (s ++ t) = indicesFrom place s ++ indicesFrom (place + byteLength s) t := by
  induction s generalizing place with
  | nil => rfl
  | cons c s ih =>
    rw [List.cons_append, indicesFrom, ih, Text.byteLength_cons, ← Nat.add_assoc]
    rfl

theorem indices_append (s t : Text) :
    indices (s ++ t) = indices s ++ indicesFrom (byteLength s) t := by
  rw [indices, indicesFrom_append, Nat.zero_add]
  rfl

theorem snd_mem_of_mem_indicesFrom {item : Nat × Char} (h : item ∈ indicesFrom place text) :
    item.2 ∈ text := by
  induction text generalizing place with
  | nil => cases h
  | cons c text ih =>
    rcases List.mem_cons.1 h with rfl | h
    · exact List.mem_cons_self
    · exact List.mem_cons_of_mem c (ih h)

theorem beq_false_of_not_mem (h : c ∉ text) : ∀ d ∈ text, (d == c) = false := by
  intro d hd
  rw [beq_eq_false_iff_ne]
  rintro rfl
  exact h hd

variable {p : Char → Bool}

theorem find?_indicesFrom_eq_none (h : ∀ c ∈ text, p c = false) (place : Nat) :
    (indicesFrom place text).find? (fun item => p item.2) = none := by
  rw [List.find?_eq_none]
  intro item hitem
  rw [h _ (snd_mem_of_mem_indicesFrom hitem)]
  exact Bool.false_ne_true

theorem find?_eq_none (h : ∀ c ∈ text, p c = false) : find? p text = none := by
  rw [find?, indices, find?_indicesFrom_eq_none h]
  rfl

theorem find?_append_cons (hs : ∀ d ∈ s, p d = false) (hc : p c = true) (t : Text) :
    find? p (s ++ c :: t) = some (byteLength s) := by
  rw [find?, indices_append, List.find?_append, indices, find?_indicesFrom_eq_none hs,
    Option.none_or]
  simp [indicesFrom, hc]

/-- The last character of a class is found before those that are not in it. -/
theorem findLast?_append_cons (hc : p c = true) (ht : ∀ d ∈ t, p d = false) (s : Text) :
    findLast? p (s ++ c :: t) = some (byteLength s) := by
  have hbehind : (indicesFrom (byteLength s + c.utf8Size) t).reverse.find?
      (fun item => p item.2) = none := by
    rw [List.find?_eq_none]
    intro item hitem
    rw [ht _ (snd_mem_of_mem_indicesFrom (List.mem_reverse.1 hitem))]
    exact Bool.false_ne_true
  rw [findLast?, indices_append, indicesFrom, List.reverse_append, List.reverse_cons,
    List.append_assoc, List.find?_append, hbehind, Option.none_or]
  simp [hc]

end Stepwise.Bytewise
