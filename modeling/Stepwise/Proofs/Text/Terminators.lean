import Stepwise.Proofs.Text.Items
import Stepwise.Proofs.Text.Statement

/-!
# The end of a statement

A statement is cut off at its first terminator, a semicolon or a line comment outside literals and
groups. A scan shows of the statement what it shows of the whole line, so nothing that is left ends
a statement, and cutting once more changes nothing.

## Main definitions

* `Stepwise.Text.StartsTerminator` — the text starts with a terminator.

## Main results

* `Stepwise.Text.Unterminated.of_append` — a leading part of a text without terminators has none.
* `Stepwise.Text.cutStatement_cases` — what a text is cut to, and what is removed.
* `Stepwise.Text.cutStatement_final` — cutting stops at the first terminator and is idempotent.
-/

namespace Stepwise.Text

variable {spot : Spot} {text s t : Text}

/-- A text that starts with a semicolon or with a line comment. -/
inductive StartsTerminator : Text → Prop where
  | semicolon (rest : Text) : StartsTerminator (';' :: rest)
  | comment (rest : Text) : StartsTerminator ('/' :: '/' :: rest)

/-- A statement ends where a terminator starts. -/
theorem endsStatement_iff : endsStatement spot = true ↔ StartsTerminator spot.rest := by
  obtain ⟨before, c, after⟩ := spot
  constructor
  · intro h
    simp only [endsStatement, Bool.or_eq_true, Bool.and_eq_true, beq_iff_eq] at h
    rcases h with rfl | ⟨rfl, hafter⟩
    · exact .semicolon after
    · obtain ⟨rest, rfl⟩ := List.head?_eq_some_iff.1 hafter
      exact .comment rest
  · intro h
    cases h with
    | semicolon rest => rfl
    | comment rest => rfl

theorem StartsTerminator.append (h : StartsTerminator s) (t : Text) :
    StartsTerminator (s ++ t) := by
  cases h with
  | semicolon rest => exact .semicolon (rest ++ t)
  | comment rest => exact .comment (rest ++ t)

theorem StartsTerminator.trimLeft_eq (h : StartsTerminator t) : trimLeft t = t := by
  cases h <;> rfl

/-! ### Texts without terminators -/

/-- No terminator stands at the top level of the text. -/
def Unterminated (text : Text) : Prop :=
  ∀ spot ∈ topLevel text, ¬ StartsTerminator spot.rest

theorem find?_endsStatement_eq_none_iff :
    (topLevel text).find? endsStatement = none ↔ Unterminated text := by
  rw [List.find?_eq_none]
  exact forall₂_congr fun spot _ => not_congr endsStatement_iff

/-- A leading part of a text without terminators has none. -/
theorem Unterminated.of_append (h : Unterminated (s ++ t)) : Unterminated s := by
  intro spot hspot hterminator
  have hmem : spot.extend t ∈ topLevel (s ++ t) := by
    rw [topLevel_append_eq]
    exact List.mem_append_left _ (List.mem_map_of_mem hspot)
  exact h _ hmem (hterminator.append t)

/-- Before the first terminator there is none. -/
theorem unterminated_left (h : (topLevel text).find? endsStatement = some spot) :
    Unterminated spot.left := by
  have htext : spot.left ++ spot.rest = text :=
    text_of_mem_topLevel (List.mem_of_find?_eq_some h)
  intro earlier hearlier hterminator
  have hsome : (((topLevel spot.left).map (Spot.extend spot.rest)).find? endsStatement).isSome :=
    List.find?_isSome.2 ⟨earlier.extend spot.rest, List.mem_map_of_mem hearlier,
      endsStatement_iff.2 (hterminator.append spot.rest)⟩
  obtain ⟨found, hfound⟩ := Option.isSome_iff_exists.1 hsome
  obtain ⟨first, hfirst, hfirst_eq⟩ := List.mem_map.1 (List.mem_of_find?_eq_some hfound)
  rw [← htext, topLevel_append_eq, List.find?_append, hfound, Option.some_or,
    Option.some.injEq] at h
  have hbound := (offset_of_mem_scanFrom hfirst).2
  have hoffset : first.offset = byteLength spot.left := by
    rw [← h, ← hfirst_eq]
    exact (byteLength_reverse first.before).symm
  simp only [byteLength_nil] at hbound
  omega

/-! ### Cutting -/

/-- A text is cut at its first terminator, or is left whole if it has none. -/
theorem cutStatement_cases (text : Text) :
    ∃ body, cutStatement text = trimRight body ∧ Unterminated body ∧
      (body = text ∨ ∃ spot ∈ topLevel text, StartsTerminator spot.rest ∧ body = spot.left) := by
  cases hfind : (topLevel text).find? endsStatement with
  | some spot =>
    refine ⟨spot.left, by rw [cutStatement, hfind], unterminated_left hfind, .inr ?_⟩
    exact ⟨spot, List.mem_of_find?_eq_some hfind,
      endsStatement_iff.1 (List.find?_some hfind), rfl⟩
  | none =>
    exact ⟨text, by rw [cutStatement, hfind], find?_endsStatement_eq_none_iff.1 hfind, .inl rfl⟩

theorem isBlank_of_getLast?_trimRight {c : Char} (h : (trimRight t).getLast? = some c) :
    isBlank c = false := by
  rw [trimRight, List.getLast?_reverse] at h
  obtain ⟨rest, hrest⟩ := List.head?_eq_some_iff.1 h
  exact eq_false_of_dropWhile_eq_cons hrest

/-- Cutting is final. For every text, what is left is a leading part of it without white space at
its end and without a terminator at its top level, so that cutting it again changes nothing; and
what is removed is white space and then nothing, or the terminator at which the scan stopped. All
this rests on the scan being stable: what it shows of a leading part is what the scan of the whole
text shows before the end of this part. -/
theorem cutStatement_final :
    (∀ text : Text,
      (∃ rest, text = cutStatement text ++ rest ∧
        (trimLeft rest = [] ∨
          ∃ spot ∈ topLevel text, trimLeft rest = spot.rest ∧ StartsTerminator spot.rest)) ∧
      (∀ c, (cutStatement text).getLast? = some c → isBlank c = false) ∧
      (∀ spot ∈ topLevel (cutStatement text), ¬ StartsTerminator spot.rest) ∧
      cutStatement (cutStatement text) = cutStatement text) ∧
    ∀ s t : Text, items s = (items (s ++ t)).filter fun item => decide (item.1 < byteLength s) := by
  refine ⟨fun text => ?_, items_eq_filter⟩
  obtain ⟨body, hcut, hbody, hremoved⟩ := cutStatement_cases text
  obtain ⟨trail, htrail, hblank⟩ := exists_eq_trimRight body
  have hleft : Unterminated (trimRight body) := Unterminated.of_append (htrail ▸ hbody)
  rw [hcut]
  refine ⟨?_, fun c => isBlank_of_getLast?_trimRight, hleft, ?_⟩
  · rcases hremoved with rfl | ⟨spot, hspot, hterminator, rfl⟩
    · exact ⟨trail, htrail, .inl (List.dropWhile_eq_nil_iff.2 hblank)⟩
    · refine ⟨trail ++ spot.rest, ?_, .inr ⟨spot, hspot, ?_, hterminator⟩⟩
      · rw [← List.append_assoc, ← htrail]
        exact (text_of_mem_topLevel hspot).symm
      · rw [trimLeft_append_of_eq_nil (List.dropWhile_eq_nil_iff.2 hblank),
          hterminator.trimLeft_eq]
  · rw [cutStatement, find?_endsStatement_eq_none_iff.2 hleft]
    exact trimRight_trimRight body

/-- A semicolon in a literal and a division do not end a statement; the cut is at the semicolon
behind them, and the comment goes with it. -/
theorem cutStatement_final_division :
    let text := "s = 'a;b' / é \t ; // c".toList
    let statement := "s = 'a;b' / é".toList
    cutStatement text = statement ∧
      statement.getLast? = some 'é' ∧ isBlank 'é' = false ∧
      (∀ spot ∈ topLevel statement, ¬ StartsTerminator spot.rest) ∧
      cutStatement statement = statement ∧
      items statement = (items text).filter fun item => decide (item.1 < 14) := by
  intro text statement
  have hcut : cutStatement text = statement := by decide
  have hlast : statement.getLast? = some 'é' := by decide
  obtain ⟨hfinal, hstable⟩ := cutStatement_final
  obtain ⟨-, hblank, hfree, hagain⟩ := hfinal text
  rw [hcut] at hblank hfree hagain
  exact ⟨hcut, hlast, hblank 'é' hlast, hfree, hagain, hstable statement " \t ; // c".toList⟩

end Stepwise.Text
