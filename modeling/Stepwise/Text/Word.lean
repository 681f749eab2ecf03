import Stepwise.Text.Basic
import Stepwise.Text.Alphanumeric

/-!
# Words

A word is a run of letters, numbers, underscores and dollar signs. Identifiers,
keywords and integers are all words.

## Main definitions

* `Stepwise.Text.isWordChar`, `isWord` — the characters and the texts made of them.
* `Stepwise.Text.leadingWord` — the longest word at the start, with the rest.
* `Stepwise.Text.afterKeyword` — what follows a keyword that stands as a whole word.

## Main results

* `Stepwise.Text.leadingWord_eq_some_iff` — a leading word is a word that the rest
  does not continue.
* `Stepwise.Text.afterKeyword_eq_some_iff` — a keyword is stripped exactly where it
  stands as a whole word.
-/

namespace Stepwise.Text

/-- The characters of identifiers. -/
def isWordChar (c : Char) : Bool :=
  isAlphanumeric c || c == '_' || c == '$'

/-- A non-empty run of word characters. -/
def isWord (text : Text) : Bool :=
  !text.isEmpty && text.all isWordChar

/-- The longest word at the start of a text, and what follows it. -/
def leadingWord (text : Text) : Option (Text × Text) :=
  match text.takeWhile isWordChar with
  | [] => none
  | c :: word => some (c :: word, text.dropWhile isWordChar)

/-- Whether a text goes on with a word character. -/
def continuesWord : Text → Bool
  | [] => false
  | c :: _ => isWordChar c

/-- What follows `keyword`, provided that it stands at the start as a whole word. -/
def afterKeyword (keyword text : Text) : Option Text :=
  (afterLead keyword text).filter fun rest => !continuesWord rest

theorem leadingWord_eq_some_iff {text word rest : Text} :
    leadingWord text = some (word, rest) ↔
      text = word ++ rest ∧ isWord word = true ∧ continuesWord rest = false := by
  have hsplit := List.takeWhile_append_dropWhile (p := isWordChar) (l := text)
  have hrest : continuesWord (text.dropWhile isWordChar) = false := by
    cases h : text.dropWhile isWordChar with
    | nil => rfl
    | cons c r =>
      have := List.head_dropWhile_not isWordChar (l := text) (by simp [h])
      simpa [continuesWord, h] using this
  have hall : (text.takeWhile isWordChar).all isWordChar = true :=
    List.all_takeWhile
  constructor
  · intro h
    unfold leadingWord at h
    split at h
    · simp at h
    · rename_i c w hw
      simp only [Option.some.injEq, Prod.mk.injEq] at h
      obtain ⟨rfl, rfl⟩ := h
      rw [hw] at hsplit hall
      exact ⟨hsplit.symm, by simpa [isWord] using hall, hrest⟩
  · rintro ⟨rfl, hword, hstop⟩
    obtain ⟨hne, hchars⟩ : word ≠ [] ∧ ∀ c ∈ word, isWordChar c = true := by
      simpa [isWord, List.isEmpty_iff] using hword
    have htake : (word ++ rest).takeWhile isWordChar = word := by
      rw [List.takeWhile_append_of_pos hchars]
      cases rest with
      | nil => simp
      | cons c r => simp_all [continuesWord]
    have hdrop : (word ++ rest).dropWhile isWordChar = rest := by
      rw [List.dropWhile_append_of_pos hchars]
      cases rest with
      | nil => simp
      | cons c r => simp_all [continuesWord]
    unfold leadingWord
    rw [htake, hdrop]
    cases word with
    | nil => exact absurd rfl hne
    | cons c w => rfl

theorem afterKeyword_eq_some_iff {keyword text rest : Text} :
    afterKeyword keyword text = some rest ↔
      text = keyword ++ rest ∧ continuesWord rest = false := by
  simp [afterKeyword, Option.filter_eq_some_iff, afterLead_eq_some_iff]

end Stepwise.Text
