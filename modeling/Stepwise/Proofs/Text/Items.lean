import Stepwise.Proofs.Expression.Matching

/-!
# The positions of the top level

The characters that a scan shows stand in the text one behind the other, each where its byte
position says. What a scan shows of the first part of a text does not depend on the rest: it is
what the scan of the whole text shows before the end of that part.

## Main definitions

* `Stepwise.Text.StandsAt` — a character starts at a byte position.

## Main results

* `Stepwise.Text.exists_passed_of_mem_scanFrom` — a spot has behind it what the scan has passed.
* `Stepwise.Text.pairwise_items`, `Stepwise.Text.standsAt_of_mem_items` — positions increase, and
  they are those of the characters.
* `Stepwise.Text.items_eq_filter` — the items of a leading part.
-/

namespace Stepwise.Text

variable {brackets : Brackets} {state : ScanState} {before : List Char} {spot : Spot}
  {text s t : Text} {c : Char} {place : Nat}

/-- The character stands in the text at this byte position. -/
def StandsAt (text : Text) (place : Nat) (c : Char) : Prop :=
  ∃ s t, text = s ++ c :: t ∧ place = byteLength s

theorem StandsAt.isBoundary (h : StandsAt text place c) : IsBoundary text place := by
  obtain ⟨s, t, rfl, rfl⟩ := h
  exact ⟨s, c :: t, rfl, rfl⟩

theorem byteLength_cons_pos (c : Char) (t : Text) : 0 < byteLength (c :: t) := by
  have := c.utf8Size_pos
  rw [byteLength_cons]
  omega

/-! ### What a scan has passed -/

/-- A spot has behind it what stood before the scan and what the scan has passed since. -/
theorem exists_passed_of_mem_scanFrom (h : spot ∈ scanFrom brackets state before text) :
    ∃ passed, text = passed ++ spot.rest ∧ spot.before = passed.reverse ++ before := by
  induction text generalizing state before with
  | nil => cases h
  | cons c text ih =>
    have hrest : spot ∈ scanFrom brackets (state.step brackets c) (c :: before) text →
        ∃ passed, c :: text = passed ++ spot.rest ∧ spot.before = passed.reverse ++ before := by
      intro h
      obtain ⟨passed, hpassed, hbefore⟩ := ih h
      exact ⟨c :: passed, by rw [hpassed, List.cons_append], by simp [hbefore]⟩
    rw [scanFrom] at h
    split at h
    · rcases List.mem_cons.1 h with rfl | h
      · exact ⟨[], rfl, rfl⟩
      · exact hrest h
    · exact hrest h

/-- A scan shows nothing before its start and nothing behind its end. -/
theorem offset_of_mem_scanFrom (h : spot ∈ scanFrom brackets state before text) :
    byteLength before ≤ spot.offset ∧ spot.offset < byteLength before + byteLength text := by
  obtain ⟨passed, rfl, hbefore⟩ := exists_passed_of_mem_scanFrom h
  have hpos : 0 < byteLength spot.rest := byteLength_cons_pos _ _
  rw [Spot.offset, hbefore]
  simp only [byteLength_append, byteLength_reverse]
  omega

/-- The spots of a scan lie one behind the other. -/
theorem pairwise_offset_scanFrom :
    (scanFrom brackets state before text).Pairwise fun a b => a.offset < b.offset := by
  induction text generalizing state before with
  | nil => exact List.Pairwise.nil
  | cons c text ih =>
    cases hshows : state.shows brackets c with
    | true =>
      rw [scanFrom_cons_of_shows hshows, List.pairwise_cons]
      refine ⟨fun later hlater => ?_, ih⟩
      have hbound := (offset_of_mem_scanFrom hlater).1
      have := c.utf8Size_pos
      rw [byteLength_cons] at hbound
      change byteLength before < later.offset
      omega
    | false =>
      rw [scanFrom_cons_of_not_shows hshows]
      exact ih

/-- The top level of a text is that of its first part, and then what a scan shows that has this
part behind it. -/
theorem topLevel_append_eq (s t : Text) :
    topLevel (s ++ t) = (topLevel s).map (Spot.extend t) ++
      scanFrom .all (ScanState.start.run .all s) s.reverse t := by
  have happend : topLevel (s ++ t) = (topLevel s).map (Spot.extend t) ++
      scanFrom .all (ScanState.start.run .all s) (s.reverse ++ []) t := scanFrom_append
  rwa [List.append_nil] at happend

/-! ### Items -/

/-- The positions of the items increase. -/
theorem pairwise_items (text : Text) : (items text).Pairwise fun a b => a.1 < b.1 :=
  List.pairwise_map.2 pairwise_offset_scanFrom

theorem standsAt_of_mem_topLevel (h : spot ∈ topLevel text) :
    StandsAt text spot.offset spot.char := by
  refine ⟨spot.left, spot.after, (text_of_mem_topLevel h).symm, ?_⟩
  exact (byteLength_reverse spot.before).symm

/-- Each item stands where its position says. -/
theorem standsAt_of_mem_items {item : Nat × Char} (h : item ∈ items text) :
    StandsAt text item.1 item.2 := by
  obtain ⟨spot, hspot, rfl⟩ := List.mem_map.1 h
  exact standsAt_of_mem_topLevel hspot

/-- The items of a text are those of its first part, and then those behind the end of that
part. -/
theorem exists_items_append (s t : Text) :
    ∃ later, items (s ++ t) = items s ++ later ∧ ∀ item ∈ later, byteLength s ≤ item.1 := by
  refine ⟨(scanFrom .all (ScanState.start.run .all s) s.reverse t).map
    fun spot => (spot.offset, spot.char), ?_, ?_⟩
  · rw [items, topLevel_append_eq, List.map_append, List.map_map]
    rfl
  · intro item hitem
    obtain ⟨spot, hspot, rfl⟩ := List.mem_map.1 hitem
    simpa using (offset_of_mem_scanFrom hspot).1

/-- What a scan shows of a leading part is what the scan of the whole shows before its end. -/
theorem items_eq_filter (s t : Text) :
    items s = (items (s ++ t)).filter fun item => decide (item.1 < byteLength s) := by
  obtain ⟨later, hitems, hlater⟩ := exists_items_append s t
  have hkeeps : (items s).filter (fun item => decide (item.1 < byteLength s)) = items s := by
    refine List.filter_eq_self.2 fun item hitem => ?_
    obtain ⟨spot, hspot, rfl⟩ := List.mem_map.1 hitem
    simpa using (offset_of_mem_scanFrom hspot).2
  have hdrops : later.filter (fun item => decide (item.1 < byteLength s)) = [] := by
    refine List.filter_eq_nil_iff.2 fun item hitem => ?_
    simpa using hlater item hitem
  rw [hitems, List.filter_append, hkeeps, hdrops, List.append_nil]

end Stepwise.Text
