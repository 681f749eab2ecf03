import Mathlib.Data.List.DropRight
import Stepwise.Proofs.Text.Characters

/-!
# Texts without white space at their ends

## Main definitions

* `Stepwise.Text.Tight` — a text that starts and ends with something to see.

## Main results

* `Stepwise.Text.Tight.append` — the ends of two tight texts make a tight text,
  whatever stands between them.
* `Stepwise.Text.Tight.trim_eq`, `trim_cons`, `trim_concat` — trimming gives a tight
  text back, also after white space was put at one of its ends.
* `Stepwise.Text.Tight.trim_append` — behind a tight text only the end is trimmed.
* `Stepwise.Text.tight_of_trim_eq` — what trimming leaves as it is is tight.
* `Stepwise.Text.trimRight_append_cons`, `isEmpty_trim_eq_false` — a character to see is
  never trimmed.
* `Stepwise.Text.exists_eq_trim` — only white space is trimmed.
-/

namespace Stepwise.Text

variable {c : Char} {s t : Text}

/-- The text is not empty and has no white space at either end. -/
structure Tight (text : Text) : Prop where
  /-- The text starts with a character that is not white space. -/
  head : ∃ c rest, text = c :: rest ∧ isBlank c = false
  /-- The text ends with a character that is not white space. -/
  last : ∃ start c, text = start ++ [c] ∧ isBlank c = false

theorem eq_false_of_dropWhile_eq_cons {p : Char → Bool} {rest : Text}
    (h : t.dropWhile p = c :: rest) : p c = false := by
  have hhead := List.head_dropWhile_not p (l := t) (by simp [h])
  simpa [h] using hhead

namespace Tight

theorem ne_nil (h : Tight t) : t ≠ [] := by
  obtain ⟨c, rest, rfl, -⟩ := h.head
  exact List.cons_ne_nil c rest

theorem of_forall (hne : t ≠ []) (h : ∀ c ∈ t, isBlank c = false) : Tight t where
  head := by
    obtain ⟨c, rest, rfl⟩ := List.exists_cons_of_ne_nil hne
    exact ⟨c, rest, rfl, h c List.mem_cons_self⟩
  last :=
    ⟨t.dropLast, t.getLast hne, (List.dropLast_append_getLast hne).symm,
      h _ (List.getLast_mem hne)⟩

/-- What stands between two tight texts does not matter. -/
theorem append (hs : Tight s) (ht : Tight t) (middle : Text) : Tight (s ++ (middle ++ t)) where
  head := by
    obtain ⟨c, rest, rfl, hc⟩ := hs.head
    exact ⟨c, rest ++ (middle ++ t), rfl, hc⟩
  last := by
    obtain ⟨start, c, rfl, hc⟩ := ht.last
    exact ⟨s ++ (middle ++ start), c, by simp, hc⟩

theorem trimLeft_eq (h : Tight t) : trimLeft t = t := by
  obtain ⟨c, rest, rfl, hc⟩ := h.head
  simp [trimLeft, hc]

theorem trimRight_eq (h : Tight t) : trimRight t = t := by
  obtain ⟨start, c, rfl, hc⟩ := h.last
  simp [trimRight, hc]

theorem trim_eq (h : Tight t) : trim t = t := by
  rw [trim, h.trimLeft_eq, h.trimRight_eq]

/-- White space in front of a tight text is trimmed. -/
theorem trim_cons (h : Tight t) (hc : isBlank c = true) : trim (c :: t) = t := by
  have hleft : trimLeft (c :: t) = trimLeft t := by simp [trimLeft, hc]
  rw [trim, hleft, h.trimLeft_eq, h.trimRight_eq]

/-- White space behind a tight text is trimmed. -/
theorem trim_concat (h : Tight t) (hc : isBlank c = true) : trim (t ++ [c]) = t := by
  have hleft : trimLeft (t ++ [c]) = t ++ [c] := by
    obtain ⟨d, rest, rfl, hd⟩ := h.head
    simp [trimLeft, hd]
  have hright : trimRight (t ++ [c]) = trimRight t := by simp [trimRight, hc]
  rw [trim, hleft, hright, h.trimRight_eq]

end Tight

/-- What trimming leaves as it is has no white space at its ends. -/
theorem tight_of_trim_eq (h : trim t = t) (hne : t ≠ []) : Tight t := by
  have hlength := congrArg List.length h
  have hhead : ∃ c rest, t = c :: rest ∧ isBlank c = false := by
    obtain ⟨c, rest, rfl⟩ := List.exists_cons_of_ne_nil hne
    refine ⟨c, rest, rfl, Bool.eq_false_iff.2 fun hblank => ?_⟩
    have hleft : trimLeft (c :: rest) = trimLeft rest := by simp [trimLeft, hblank]
    have hle := Nat.le_trans (length_trimRight_le (trimLeft rest)) (length_trimLeft_le rest)
    rw [trim, hleft, List.length_cons] at hlength
    omega
  obtain ⟨c, rest, rfl, hc⟩ := hhead
  refine ⟨⟨c, rest, rfl, hc⟩, ?_⟩
  have hright : trimRight (c :: rest) = c :: rest := by simpa [trim, trimLeft, hc] using h
  rw [← List.dropLast_append_getLast hne] at hright ⊢
  refine ⟨_, _, rfl, Bool.eq_false_iff.2 fun hblank => ?_⟩
  have hlast : trimRight ((c :: rest).dropLast ++ [(c :: rest).getLast hne]) =
      trimRight (c :: rest).dropLast := by simp [trimRight, hblank]
  have hle := length_trimRight_le (c :: rest).dropLast
  rw [← hlast, hright, List.length_append, List.length_singleton] at hle
  omega

theorem tight_iff : Tight t ↔ trim t = t ∧ t ≠ [] :=
  ⟨fun h => ⟨h.trim_eq, h.ne_nil⟩, fun h => tight_of_trim_eq h.1 h.2⟩

instance (t : Text) : Decidable (Tight t) :=
  decidable_of_iff _ tight_iff.symm

theorem trimLeft_append (h : trimLeft s ≠ []) (t : Text) : trimLeft (s ++ t) = trimLeft s ++ t := by
  rw [trimLeft] at h ⊢
  rw [List.dropWhile_append, if_neg (by simpa using h)]
  rfl

theorem trimLeft_append_of_eq_nil (h : trimLeft s = []) (t : Text) :
    trimLeft (s ++ t) = trimLeft t := by
  rw [trimLeft] at h ⊢
  rw [List.dropWhile_append, if_pos (by simpa using h)]
  rfl

/-! ### Texts with something to see -/

/-- White space is trimmed no further than to the last character to see. -/
theorem trimRight_append_cons (hc : isBlank c = false) (s t : Text) :
    trimRight (s ++ c :: t) = s ++ c :: trimRight t := by
  simp only [trimRight, List.reverse_append, List.reverse_cons, List.append_assoc,
    List.singleton_append]
  rw [List.dropWhile_append]
  split
  · rename_i hblank
    rw [List.isEmpty_iff] at hblank
    rw [hblank, List.dropWhile_cons_of_neg (by simp [hc])]
    simp
  · simp

theorem Tight.trimLeft_append (h : Tight s) (t : Text) : trimLeft (s ++ t) = s ++ t := by
  obtain ⟨c, rest, rfl, hc⟩ := h.head
  simp [trimLeft, hc]

/-- Behind a tight text only the end is trimmed. -/
theorem Tight.trim_append (h : Tight s) (t : Text) : trim (s ++ t) = s ++ trimRight t := by
  have hleft := h.trimLeft_append t
  obtain ⟨start, c, rfl, hc⟩ := h.last
  rw [trim, hleft, List.append_assoc, List.singleton_append, trimRight_append_cons hc,
    List.append_assoc, List.singleton_append]

theorem head?_trimRight_cons (c : Char) (t : Text) :
    trimRight (c :: t) = [] ∨ (trimRight (c :: t)).head? = some c := by
  obtain ⟨removed, hremoved⟩ := trimRight_isPrefixOf (c :: t)
  cases hright : trimRight (c :: t) with
  | nil => exact .inl rfl
  | cons d rest =>
    rw [hright] at hremoved
    cases hremoved
    exact .inr rfl

/-- White space in front of a text is trimmed. -/
theorem trim_cons (hc : isBlank c = true) (t : Text) : trim (c :: t) = trim t := by
  simp [trim, trimLeft, hc]

theorem trimRight_trimRight (t : Text) : trimRight (trimRight t) = trimRight t := by
  simp [trimRight, List.dropWhile_idempotent]

/-- Trimming one end before both changes nothing. -/
theorem trim_trimRight (t : Text) : trim (trimRight t) = trim t := by
  have hsplit := List.takeWhile_append_dropWhile (p := isBlank) (l := t)
  have hblank : ∀ d ∈ t.takeWhile isBlank, isBlank d = true :=
    List.all_eq_true.1 List.all_takeWhile
  cases hrest : t.dropWhile isBlank with
  | nil =>
    rw [hrest, List.append_nil] at hsplit
    have hnil : trimRight t = [] := by
      rw [trimRight, List.reverse_eq_nil_iff, List.dropWhile_eq_nil_iff]
      intro d hd
      exact hblank d (hsplit.symm ▸ List.mem_reverse.1 hd)
    rw [hnil, trim, trim, trimLeft, trimLeft, hrest]
    rfl
  | cons d rest =>
    have hd : isBlank d = false := eq_false_of_dropWhile_eq_cons hrest
    rw [hrest] at hsplit
    have hleft : ∀ u, trimLeft (t.takeWhile isBlank ++ d :: u) = d :: u := fun u => by
      rw [trimLeft, List.dropWhile_append_of_pos hblank]
      exact List.dropWhile_cons_of_neg (by simp [hd])
    rw [← hsplit, trimRight_append_cons hd, trim, trim, hleft, hleft]
    have hcons : ∀ u, trimRight (d :: u) = d :: trimRight u := trimRight_append_cons hd []
    rw [hcons, hcons, trimRight_trimRight]

theorem trim_append_cons (hs : ∀ d ∈ s, isBlank d = true) (hc : isBlank c = false) (t : Text) :
    trim (s ++ c :: t) = trimRight (c :: t) := by
  rw [trim, trimLeft, List.dropWhile_append_of_pos hs,
    List.dropWhile_cons_of_neg (Bool.eq_false_iff.1 hc)]

theorem exists_eq_trimRight (t : Text) :
    ∃ trail, t = trimRight t ++ trail ∧ ∀ c ∈ trail, isBlank c = true := by
  refine ⟨(t.reverse.takeWhile isBlank).reverse, ?_, fun c hc => ?_⟩
  · rw [trimRight, ← List.reverse_append, List.takeWhile_append_dropWhile, List.reverse_reverse]
  · exact List.all_eq_true.1 List.all_takeWhile c (List.mem_reverse.1 hc)

/-- A text is what is left of it with white space around it. -/
theorem exists_eq_trim (t : Text) : ∃ lead trail, t = lead ++ (trim t ++ trail) ∧
    (∀ c ∈ lead, isBlank c = true) ∧ ∀ c ∈ trail, isBlank c = true := by
  obtain ⟨trail, htrail, hblank⟩ := exists_eq_trimRight (trimLeft t)
  refine ⟨t.takeWhile isBlank, trail, ?_, List.all_eq_true.1 List.all_takeWhile, hblank⟩
  rw [trim, ← htrail, trimLeft, List.takeWhile_append_dropWhile]

/-- A text with something to see is not blank. -/
theorem isEmpty_trim_eq_false (hc : isBlank c = false) (s t : Text) :
    (trim (s ++ c :: t)).isEmpty = false := by
  obtain ⟨s', hleft⟩ : ∃ s', trimLeft (s ++ c :: t) = s' ++ c :: t := by
    rw [trimLeft, List.dropWhile_append]
    split
    · exact ⟨[], List.dropWhile_cons_of_neg (by simp [hc])⟩
    · exact ⟨_, rfl⟩
  rw [trim, hleft, trimRight_append_cons hc]
  cases s' <;> rfl

end Stepwise.Text
