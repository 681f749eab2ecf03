import Stepwise.Json.Reader
import Stepwise.Proofs.Double.Numbers

/-!
# Documents that equal themselves

Equality of documents compares doubles as numbers, so a document that holds `NaN` would
differ from itself. No text writes such a document: every double that the reader makes is
a number.

## Main results

* `Stepwise.Json.sameAs_comm` — equality of documents does not depend on their order.
* `Stepwise.Json.isNaN_of_ofScaled?` — scaling a number gives a number.
* `Stepwise.Json.sameAs_self_of_parse?` — a document that was read equals itself.
-/

namespace Stepwise.Json

/-! ### Equality item by item -/

theorem sameItems_self {items : List Json} (h : ∀ item ∈ items, item.sameAs item = true) :
    sameItems items items = true := by
  induction items with
  | nil => rfl
  | cons item items ih =>
    rw [List.forall_mem_cons] at h
    simp only [sameItems, h.1, ih h.2, Bool.and_self]

theorem sameFields_self {fields : List (Text × Json)}
    (h : ∀ field ∈ fields, field.2.sameAs field.2 = true) : sameFields fields fields = true := by
  induction fields with
  | nil => rfl
  | cons field fields ih =>
    rw [List.forall_mem_cons] at h
    simp only [sameFields, h.1, ih h.2, BEq.rfl, Bool.and_self]

mutual

/-- Equality of documents does not depend on their order. -/
theorem sameAs_comm (a b : Json) : a.sameAs b = b.sameAs a := by
  cases a <;> cases b
  case double.double x y => exact Double.beq_comm x y
  case arr.arr items items' => exact sameItems_comm items items'
  case obj.obj fields fields' => exact sameFields_comm fields fields'
  case bool.bool | int.int | str.str => exact BEq.comm
  all_goals rfl

theorem sameItems_comm (items items' : List Json) :
    sameItems items items' = sameItems items' items := by
  match items, items' with
  | [], [] | [], _ :: _ | _ :: _, [] => rfl
  | item :: items, item' :: items' =>
    rw [sameItems, sameItems, sameAs_comm item, sameItems_comm items]

theorem sameFields_comm (fields fields' : List (Text × Json)) :
    sameFields fields fields' = sameFields fields' fields := by
  match fields, fields' with
  | [], [] | [], _ :: _ | _ :: _, [] => rfl
  | (key, value) :: fields, (key', value') :: fields' =>
    rw [sameFields, sameFields, sameAs_comm value, sameFields_comm fields, BEq.comm]

end

/-- The fields after an insertion are the new one and some of the old ones. -/
theorem mem_of_mem_insertField {key : Text} {value : Json} {fields : List (Text × Json)}
    {field : Text × Json} (h : field ∈ insertField key value fields) :
    field = (key, value) ∨ field ∈ fields := by
  induction fields with
  | nil => exact .inl (List.mem_singleton.1 h)
  | cons other fields ih =>
    unfold insertField at h
    split at h
    · exact (List.mem_cons.1 h).imp_right (List.mem_cons_of_mem _)
    · split at h
      · exact List.mem_cons.1 h
      · rcases List.mem_cons.1 h with rfl | h
        · exact .inr List.mem_cons_self
        · exact (ih h).imp_right (List.mem_cons_of_mem _)

/-- An object made of fields that equal themselves equals itself. -/
theorem sameAs_self_ofFields {fields : List (Text × Json)}
    (h : ∀ field ∈ fields, field.2.sameAs field.2 = true) :
    (ofFields fields).sameAs (ofFields fields) = true := by
  -- The fields are sorted in one by one, so the invariant is about those sorted so far.
  have hfold : ∀ (rest sorted : List (Text × Json)),
      (∀ field ∈ rest, field.2.sameAs field.2 = true) →
      (∀ field ∈ sorted, field.2.sameAs field.2 = true) →
      ∀ field ∈ rest.foldl (fun sorted field => insertField field.1 field.2 sorted) sorted,
        field.2.sameAs field.2 = true := by
    intro rest
    induction rest with
    | nil => exact fun _ _ hsorted => hsorted
    | cons field rest ih =>
      intro sorted hrest hsorted
      rw [List.forall_mem_cons] at hrest
      refine ih _ hrest.2 ?_
      intro other hother
      rcases mem_of_mem_insertField hother with rfl | hmem
      · exact hrest.1
      · exact hsorted other hmem
  exact sameFields_self (hfold fields [] h (by simp))

/-! ### Numbers -/

/-- Scaling a number gives a number. -/
theorem isNaN_of_ofScaled? {significand x : Float} {exponent : Int}
    (hnumber : significand.isNaN = false) (h : ofScaled? significand exponent = some x) :
    x.isNaN = false := by
  fun_induction ofScaled? significand exponent with
  | case1 => cases h
  | case2 significand exponent hrange power _ product _ =>
    rw [← Option.some.inj h]
    exact Double.isNaN_mul hnumber (Double.isProper_powerOfTen hrange)
  | case3 significand exponent hrange power _ =>
    cases h
    exact Double.isNaN_div hnumber (Double.isProper_powerOfTen hrange)
  | case4 => cases h; exact hnumber
  | case5 => cases h
  | case6 significand exponent _ _ _ ih =>
    exact ih (Double.isNaN_div hnumber (Double.isProper_powerOfTen (Nat.le_refl 308))) h

private theorem sameAs_self_signed {x : Float} (negative : Bool) (h : x.isNaN = false) :
    (double (if negative then -x else x)).sameAs (double (if negative then -x else x)) = true := by
  cases negative with
  | true => exact Double.beq_self (Double.isNaN_neg h)
  | false => exact Double.beq_self h

/-- The double that ends a number equals itself. -/
theorem sameAs_self_of_finishDouble {negative : Bool} {significand : Nat} {exponent : Int}
    {text rest : Text} {value : Json}
    (h : finishDouble negative significand exponent text = some (value, rest)) :
    value.sameAs value = true := by
  -- Whichever exponent follows, the significand is a number and stays one when scaled.
  have hstart := Double.isNaN_toFloat significand.toUInt64
  have hscaled : ∀ {total : Int} {tail : Text},
      (ofScaled? significand.toUInt64.toFloat total).map
        (fun x => (double (if negative then -x else x), tail)) = some (value, rest) →
      value.sameAs value = true := by
    intro total tail hmap
    obtain ⟨x, hx, heq⟩ := Option.map_eq_some_iff.1 hmap
    cases heq
    exact sameAs_self_signed negative (isNaN_of_ofScaled? hstart hx)
  cases text with
  | nil => exact hscaled h
  | cons c tail =>
    simp only [finishDouble] at h
    by_cases hletter : (c = 'e' || c = 'E') = true
    · rw [if_pos hletter] at h
      obtain ⟨⟨down, shift, tail⟩, _, h⟩ := Option.bind_eq_some_iff.1 h
      cases shift with
      | some n => exact hscaled h
      | none =>
        by_cases hinfinite : (significand ≠ 0 && !down) = true
        · simp only [hinfinite, if_true] at h
          cases h
        · simp only [hinfinite] at h
          cases h
          exact sameAs_self_signed negative (by decide +kernel)
    · rw [if_neg hletter] at h
      exact hscaled h

/-- A number that was read equals itself. -/
theorem sameAs_self_of_readNumber {negative : Bool} {text rest : Text} {value : Json}
    (h : readNumber negative text = some (value, rest)) : value.sameAs value = true := by
  have hint : ∀ n : Int, (int n).sameAs (int n) = true := fun n => by simp [sameAs]
  unfold readNumber at h
  simp only at h
  split at h
  · cases h
  · split at h
    · split at h
      · cases h
      · exact sameAs_self_of_finishDouble h
    · split at h
      · exact sameAs_self_of_finishDouble h
      · split at h
        · cases h; exact hint _
        · split at h
          · exact sameAs_self_of_finishDouble h
          · cases h; exact hint _

theorem sameAs_self_of_readName {text rest : Text} {value : Json}
    (h : readName text = some (value, rest)) : value.sameAs value = true := by
  unfold readName at h
  simp only [Option.or_eq_some_iff, Option.map_eq_some_iff] at h
  rcases h with ⟨_, _, heq⟩ | ⟨_, ⟨_, _, heq⟩ | ⟨_, _, _, heq⟩⟩ <;> cases heq <;> rfl

/-! ### Values -/

/-- Values read with the given fuel equal themselves. -/
private def ValueSame (fuel : Nat) : Prop :=
  ∀ depth text value rest, readValue fuel depth text = some (value, rest) →
    value.sameAs value = true

/-- Items read with the given fuel equal themselves. -/
private def ItemsSame (fuel : Nat) : Prop :=
  ∀ depth text items rest, readItems fuel depth text = some (items, rest) →
    ∀ item ∈ items, item.sameAs item = true

/-- Fields read with the given fuel equal themselves. -/
private def FieldsSame (fuel : Nat) : Prop :=
  ∀ depth text fields rest, readFields fuel depth text = some (fields, rest) →
    ∀ field ∈ fields, field.2.sameAs field.2 = true

/-- A value is made of items or fields that are read with less fuel. -/
private theorem valueSame_succ {fuel : Nat} (hitems : ItemsSame fuel) (hfields : FieldsSame fuel) :
    ValueSame (fuel + 1) := by
  intro depth text value rest h
  rw [readValue] at h
  split at h
  · cases h
  · rename_i c tail _
    split at h
    · split at h
      · cases h
      · split at h
        · cases h; rfl
        · obtain ⟨⟨items, tail⟩, hread, heq⟩ := Option.map_eq_some_iff.1 h
          cases heq
          exact sameItems_self (hitems _ _ _ _ hread)
    · split at h
      · split at h
        · cases h
        · split at h
          · cases h; rfl
          · obtain ⟨⟨fields, tail⟩, hread, heq⟩ := Option.map_eq_some_iff.1 h
            cases heq
            exact sameAs_self_ofFields (hfields _ _ _ _ hread)
      · split at h
        · obtain ⟨⟨string, tail⟩, _, heq⟩ := Option.map_eq_some_iff.1 h
          cases heq
          simp [sameAs]
        · split at h
          · exact sameAs_self_of_readNumber h
          · split at h
            · exact sameAs_self_of_readNumber h
            · exact sameAs_self_of_readName h

/-- The items of an array are values that are read with less fuel. -/
private theorem itemsSame_succ {fuel : Nat} (hvalue : ValueSame fuel) (hitems : ItemsSame fuel) :
    ItemsSame (fuel + 1) := by
  intro depth text items rest h
  rw [readItems] at h
  split at h
  · cases h
  · rename_i item tail hread
    have hitem := hvalue _ _ _ _ hread
    split at h
    · obtain ⟨⟨others, tail⟩, hothers, heq⟩ := Option.map_eq_some_iff.1 h
      cases heq
      exact List.forall_mem_cons.2 ⟨hitem, hitems _ _ _ _ hothers⟩
    · cases h
      exact List.forall_mem_singleton.2 hitem
    · cases h

/-- The fields of an object hold values that are read with less fuel. -/
private theorem fieldsSame_succ {fuel : Nat} (hvalue : ValueSame fuel)
    (hfields : FieldsSame fuel) : FieldsSame (fuel + 1) := by
  intro depth text fields rest h
  rw [readFields] at h
  split at h
  · split at h
    · cases h
    · split at h
      · split at h
        · cases h
        · rename_i value tail hread
          have hfield := hvalue _ _ _ _ hread
          split at h
          · obtain ⟨⟨others, tail⟩, hothers, heq⟩ := Option.map_eq_some_iff.1 h
            cases heq
            exact List.forall_mem_cons.2 ⟨hfield, hfields _ _ _ _ hothers⟩
          · cases h
            exact List.forall_mem_singleton.2 hfield
          · cases h
      · cases h
  · cases h

/-- Whatever the reader reads equals itself. The three readers call each other with less
fuel, so one induction on the fuel carries all of them. -/
private theorem reader_same (fuel : Nat) : ValueSame fuel ∧ ItemsSame fuel ∧ FieldsSame fuel := by
  induction fuel with
  | zero =>
    refine ⟨?_, ?_, ?_⟩ <;> intro depth text result rest h
    · rw [readValue] at h; cases h
    · rw [readItems] at h; cases h
    · rw [readFields] at h; cases h
  | succ fuel ih =>
    obtain ⟨hvalue, hitems, hfields⟩ := ih
    exact ⟨valueSame_succ hitems hfields, itemsSame_succ hvalue hitems,
      fieldsSame_succ hvalue hfields⟩

/-- A document that was read equals itself. -/
theorem sameAs_self_of_parse? {text : Text} {value : Json} (h : parse? text = some value) :
    value.sameAs value = true := by
  unfold parse? at h
  split at h
  · rename_i document rest hread
    split at h
    · cases h
      exact (reader_same _).1 _ _ _ _ hread
    · cases h
  · cases h

end Stepwise.Json
