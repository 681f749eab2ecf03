import Stepwise.Proofs.Text.Scanning
import Stepwise.Proofs.Text.Trimming

/-!
# Cutting statements

A statement ends at its first semicolon or line comment outside literals and groups. Most
characters can neither end a statement nor hide its end; a text that starts with such
characters is cut behind them.

## Main definitions

* `Stepwise.Text.passes` — the characters that cutting passes over.

## Main results

* `Stepwise.Text.cutStatement_isPrefixOf` — cutting keeps a leading part.
* `Stepwise.Text.cutStatement_append`, `cutStatement_append_cons` — cutting a text behind
  characters that it passes over.
-/

namespace Stepwise.Text

variable {c : Char} {s t : Text}

/-! ### Characters that are passed -/

/-- The character opens and closes nothing and takes no part in the end of a statement. -/
def passes (c : Char) : Bool :=
  !(isQuote c || Brackets.all.opens c || Brackets.all.closes c || c == ';' || c == '/')

theorem passes_of_isWordChar (h : isWordChar c = true) : passes c = true := by
  have hmarks := not_mem_marks_of_isWordChar h
  have hsemicolon : c ≠ ';' := by
    rintro rfl
    exact absurd h (by decide)
  have hslash : c ≠ '/' := fun heq => hmarks (heq ▸ by decide)
  simp [passes, isQuote_eq_false_of_not_mem_marks hmarks, opens_eq_false_of_not_mem_marks hmarks,
    closes_eq_false_of_not_mem_marks hmarks, hsemicolon, hslash]

theorem passes_of_isBlank (h : isBlank c = true) : passes c = true := by
  have hcodes : ∀ n ∈ blankCodes, passes (Char.ofNat n) = true := by decide
  have hpasses := hcodes _ (toNat_mem_blankCodes h)
  rwa [Char.ofNat_toNat] at hpasses

theorem step_of_passes (h : passes c = true) (depth : Nat) :
    (ScanState.code depth).step .all c = .code depth := by
  simp only [passes, Bool.not_eq_true', Bool.or_eq_false_iff] at h
  obtain ⟨⟨⟨⟨hquote, hopens⟩, hcloses⟩, _⟩, _⟩ := h
  simp [ScanState.step, hquote, hopens, hcloses]

theorem run_of_passes (hs : ∀ c ∈ s, passes c = true) (depth : Nat) :
    (ScanState.code depth).run .all s = .code depth := by
  induction s with
  | nil => rfl
  | cons c s ih =>
    rw [ScanState.run_cons, step_of_passes (hs c List.mem_cons_self)]
    exact ih fun d hd => hs d (List.mem_cons_of_mem c hd)

/-- A spot shows a character of the scanned text. -/
theorem char_mem_of_mem_scanFrom {brackets : Brackets} {state : ScanState} {before : List Char}
    {spot : Spot} (h : spot ∈ scanFrom brackets state before t) : spot.char ∈ t := by
  induction t generalizing state before with
  | nil => cases h
  | cons c t ih =>
    simp only [scanFrom] at h
    split at h
    · rcases List.mem_cons.1 h with rfl | h
      · exact List.mem_cons_self
      · exact List.mem_cons_of_mem c (ih h)
    · exact List.mem_cons_of_mem c (ih h)

theorem endsStatement_of_passes (spot : Spot) (h : passes spot.char = true) :
    endsStatement spot = false := by
  simp only [passes, Bool.not_eq_true', Bool.or_eq_false_iff] at h
  simp [endsStatement, h.1.2, h.2]

/-! ### Cutting -/

/-- Cutting a statement keeps a leading part of the text. -/
theorem cutStatement_isPrefixOf (text : Text) : cutStatement text <+: text := by
  unfold cutStatement
  split
  · rename_i spot hfind
    have htext := text_of_mem_topLevel (List.mem_of_find?_eq_some hfind)
    exact (trimRight_isPrefixOf _).trans ⟨spot.rest, htext⟩
  · exact trimRight_isPrefixOf text

/-- Where a statement starts with characters that are passed, the last of which is to be seen,
only what follows them is cut. -/
theorem cutStatement_append (hs : ∀ d ∈ s ++ [c], passes d = true) (hc : isBlank c = false)
    (t : Text) : cutStatement (s ++ c :: t) = s ++ c :: cutStatement t := by
  have htop : topLevel (s ++ c :: t) = (topLevel (s ++ [c])).map (Spot.extend t) ++
      (topLevel t).map (Spot.shift (s ++ [c]).reverse) := by
    rw [← topLevel_append (run_of_passes hs 0), List.append_assoc, List.singleton_append]
  have hfront : ((topLevel (s ++ [c])).map (Spot.extend t)).find? endsStatement = none := by
    rw [List.find?_eq_none]
    intro spot hspot
    obtain ⟨spot, hmem, rfl⟩ := List.mem_map.1 hspot
    have hpasses := hs _ (char_mem_of_mem_scanFrom hmem)
    simp [endsStatement_of_passes (spot.extend t) hpasses]
  have hfind : (topLevel (s ++ c :: t)).find? endsStatement =
      ((topLevel t).find? endsStatement).map (Spot.shift (s ++ [c]).reverse) := by
    rw [htop, List.find?_append, hfront, Option.none_or, List.find?_map]
    rfl
  rw [cutStatement, hfind, cutStatement]
  cases (topLevel t).find? endsStatement with
  | some spot =>
    rw [Option.map_some]
    dsimp only
    rw [Spot.left_shift, List.append_assoc, List.singleton_append]
    exact trimRight_append_cons hc s spot.left
  | none => exact trimRight_append_cons hc s t

/-- What is passed in front of the first character to see of a statement stays in front of
it. -/
theorem cutStatement_append_cons (hs : ∀ d ∈ s, passes d = true) (hc : passes c = true)
    (hblank : isBlank c = false) (t : Text) :
    cutStatement (s ++ c :: t) = s ++ cutStatement (c :: t) := by
  have hfirst : cutStatement (c :: t) = c :: cutStatement t :=
    cutStatement_append (s := []) (List.forall_mem_singleton.2 hc) hblank t
  rw [hfirst]
  apply cutStatement_append _ hblank
  intro d hd
  rcases List.mem_append.1 hd with hd | hd
  · exact hs d hd
  · rw [List.mem_singleton.1 hd]
    exact hc

end Stepwise.Text
