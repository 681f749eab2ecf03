import Mathlib.Data.List.Basic
import Stepwise.Text.Scan
import Stepwise.Text.Word

/-!
# Classes of characters

White space, the characters of words and the characters with a role of their own
(quotes, brackets, operators) are told apart here, for all of Unicode. The proofs
about scanning use these facts and never look into the tables behind the classes.

## Main definitions

* `Stepwise.Text.blankCodes` — the code points of white space, one by one.
* `Stepwise.Text.marks` — the characters that scanning and splitting look for.

## Main results

* `Stepwise.Text.isBlank_eq_false_of_isWordChar` — no word contains white space.
* `Stepwise.Text.not_mem_marks_of_isWordChar` — no word contains a mark.
-/

namespace Stepwise.Text

/-! ### White space -/

/-- The code points of white space. -/
def blankCodes : List Nat :=
  [0x09, 0x0A, 0x0B, 0x0C, 0x0D, 0x20, 0x85, 0xA0, 0x1680, 0x2000, 0x2001, 0x2002, 0x2003,
    0x2004, 0x2005, 0x2006, 0x2007, 0x2008, 0x2009, 0x200A, 0x2028, 0x2029, 0x202F, 0x205F, 0x3000]

theorem toNat_mem_blankCodes {c : Char} (h : isBlank c = true) : c.toNat ∈ blankCodes := by
  simp only [isBlank, Bool.or_eq_true, Bool.and_eq_true, decide_eq_true_eq, beq_iff_eq] at h
  simp only [blankCodes, List.mem_cons, List.not_mem_nil, or_false]
  omega

theorem isWordChar_ofNat_of_mem_blankCodes :
    ∀ n ∈ blankCodes, isWordChar (Char.ofNat n) = false := by
  -- Each of the 25 code points misses every range of the table of letters and numbers.
  decide +kernel

/-- White space belongs to no word. -/
theorem isBlank_eq_false_of_isWordChar {c : Char} (h : isWordChar c = true) :
    isBlank c = false := by
  by_contra hblank
  have hmem := toNat_mem_blankCodes (eq_true_of_ne_false hblank)
  have hword := isWordChar_ofNat_of_mem_blankCodes _ hmem
  rw [Char.ofNat_toNat, h] at hword
  exact absurd hword (by decide)

theorem isWordChar_of_isBlank {c : Char} (h : isBlank c = true) : isWordChar c = false := by
  by_contra hword
  rw [isBlank_eq_false_of_isWordChar (eq_true_of_ne_false hword)] at h
  cases h

/-! ### Marks -/

/-- The characters that delimit literals and groups, write operators or escape
another character. -/
def marks : List Char :=
  ['\x22', '\x27', '\x60', '(', ')', '[', ']', '{', '}', '+', '-', '*', '/', '%', '=', '<', '>',
    '!', '&', '|', ',', '\\']

theorem any_isWordChar_marks : marks.any isWordChar = false := by
  decide

/-- A mark belongs to no word. -/
theorem not_mem_marks_of_isWordChar {c : Char} (h : isWordChar c = true) : c ∉ marks := by
  intro hmem
  exact List.any_eq_false.mp any_isWordChar_marks c hmem h

theorem isQuote_eq_false_of_not_mem_marks {c : Char} (h : c ∉ marks) : isQuote c = false := by
  simp only [marks, List.mem_cons, not_or] at h
  simp [isQuote, h]

theorem opens_eq_false_of_not_mem_marks {c : Char} (h : c ∉ marks) :
    Brackets.all.opens c = false := by
  simp only [marks, List.mem_cons, not_or] at h
  simp [Brackets.all, h]

theorem closes_eq_false_of_not_mem_marks {c : Char} (h : c ∉ marks) :
    Brackets.all.closes c = false := by
  simp only [marks, List.mem_cons, not_or] at h
  simp [Brackets.all, h]

/-! ### Quotes -/

theorem isQuote_iff {c : Char} :
    isQuote c = true ↔ c = '\x22' ∨ c = '\x27' ∨ c = '\x60' := by
  simp [isQuote, or_assoc]

theorem isBlank_eq_false_of_isQuote {c : Char} (h : isQuote c = true) : isBlank c = false := by
  rcases isQuote_iff.mp h with rfl | rfl | rfl <;> decide

end Stepwise.Text
