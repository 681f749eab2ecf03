import Stepwise.Expression.Evaluate
import Stepwise.Proofs.Text.Scanning

/-!
# The bodies of string literals

A body is a sequence of plain characters and escapes. A scan that has entered a
literal passes over its body without showing any of it and without noticing any
quote or bracket in it, and the first quote behind the body closes the literal.

## Main definitions

* `Stepwise.Expression.LiteralBody` — the bodies, piece by piece.
* `Stepwise.Expression.Unclosed` — what follows the quote of a literal that nothing closes.

## Main results

* `Stepwise.Expression.isLiteralBody_iff` — the test for bodies is exact.
* `Stepwise.Expression.LiteralBody.run`, `LiteralBody.scanFrom_append` — a scan
  passes over a body.
* `Stepwise.Expression.LiteralBody.isLiteralBody_append_quote` — no body reaches
  beyond an unescaped quote.
* `Stepwise.Expression.closed_or_unclosed` — a literal is closed behind a body, or never.
-/

namespace Stepwise.Expression

open Text (Brackets ScanState Spot scanFrom)

/-- A text that can stand between two quotes: characters other than the quote and the
backslash, and backslashes with the characters that they escape. -/
inductive LiteralBody (quote : Char) : Text → Prop where
  | nil : LiteralBody quote []
  | escape (c : Char) {rest : Text} (hrest : LiteralBody quote rest) :
      LiteralBody quote ('\\' :: c :: rest)
  | plain {c : Char} {rest : Text} (hslash : c ≠ '\\') (hquote : c ≠ quote)
      (hrest : LiteralBody quote rest) : LiteralBody quote (c :: rest)

variable {quote : Char} {body t : Text}

/-- The test for bodies is exact. -/
theorem isLiteralBody_iff :
    isLiteralBody quote body = true ↔ LiteralBody quote body := by
  constructor
  · intro h
    fun_induction isLiteralBody quote body with
    | case1 => exact .nil
    | case2 => exact absurd h (by decide)
    | case3 c body ih => exact .escape c (ih h)
    | case4 c body hdangling hescape ih =>
      obtain ⟨hc, hbody⟩ : c ≠ quote ∧ isLiteralBody quote body = true := by simpa using h
      refine .plain ?_ hc (ih hbody)
      rintro rfl
      cases body with
      | nil => exact hdangling rfl rfl
      | cons d rest => exact hescape d rest rfl rfl
  · intro h
    induction h with
    | nil => rfl
    | escape c hrest ih => simpa [isLiteralBody] using ih
    | plain hslash hc hrest ih => simpa [isLiteralBody, hslash, hc] using ih

theorem ne_backslash_of_isQuote (h : Text.isQuote quote = true) : quote ≠ '\\' := by
  rintro rfl
  exact absurd h (by decide)

/-! ### Characters inside literals -/

variable {brackets : Brackets} {depth : Nat} {before : List Char} {c : Char}

theorem shows_literal_of_ne (hquote : c ≠ quote) :
    (ScanState.literal depth quote false).shows brackets c = false := by
  simp [ScanState.shows, hquote]

theorem step_literal_of_ne (hslash : c ≠ '\\') (hquote : c ≠ quote) :
    (ScanState.literal depth quote false).step brackets c = .literal depth quote false := by
  simp [ScanState.step, hslash, hquote]

namespace LiteralBody

/-- No body reaches beyond an unescaped quote. -/
theorem isLiteralBody_append_quote (h : LiteralBody quote body) (hquote : quote ≠ '\\') :
    isLiteralBody quote (body ++ quote :: t) = false := by
  induction h with
  | nil => simp [isLiteralBody, hquote]
  | escape c hrest ih => simpa [isLiteralBody] using ih
  | plain hslash hc hrest ih => simp [isLiteralBody, hslash, ih]

/-- A scan that is in a literal is in it still behind the body. -/
theorem run (h : LiteralBody quote body) :
    (ScanState.literal depth quote false).run brackets body = .literal depth quote false := by
  induction h with
  | nil => rfl
  | escape c hrest ih => exact ih
  | plain hslash hc hrest ih => rw [ScanState.run_cons, step_literal_of_ne hslash hc, ih]

/-- Nothing of the body of a literal is shown. -/
theorem scanFrom_append (h : LiteralBody quote body) (hquote : quote ≠ '\\') :
    scanFrom brackets (.literal depth quote false) before (body ++ t) =
      scanFrom brackets (.literal depth quote false) (body.reverse ++ before) t := by
  induction h generalizing before with
  | nil => rfl
  | @escape c rest hrest ih =>
    rw [List.cons_append, List.cons_append,
      Text.scanFrom_cons_of_not_shows (shows_literal_of_ne (Ne.symm hquote)),
      Text.scanFrom_cons_of_not_shows rfl]
    simpa [ScanState.step] using ih
  | @plain c rest hslash hc hrest ih =>
    rw [List.cons_append, Text.scanFrom_cons_of_not_shows (shows_literal_of_ne hc),
      step_literal_of_ne hslash hc, ih]
    simp

end LiteralBody

/-! ### Literals that are not closed -/

/-- What follows the opening quote of a literal that nothing closes. It is made as a body is, but
a backslash at the end may have nothing to escape. -/
inductive Unclosed (quote : Char) : Text → Prop where
  | nil : Unclosed quote []
  | dangling : Unclosed quote ['\\']
  | escape (c : Char) {rest : Text} (hrest : Unclosed quote rest) :
      Unclosed quote ('\\' :: c :: rest)
  | plain {c : Char} {rest : Text} (hslash : c ≠ '\\') (hquote : c ≠ quote)
      (hrest : Unclosed quote rest) : Unclosed quote (c :: rest)

/-- Behind an opening quote either a body and the closing quote follow, or nothing closes the
literal. -/
theorem closed_or_unclosed (quote : Char) (t : Text) :
    (∃ body rest, LiteralBody quote body ∧ t = body ++ quote :: rest) ∨ Unclosed quote t := by
  -- The text is read as the test for bodies reads it: an escape takes two characters.
  fun_induction isLiteralBody quote t with
  | case1 => exact .inr .nil
  | case2 => exact .inr .dangling
  | case3 c t ih =>
    rcases ih with ⟨body, rest, hbody, rfl⟩ | hopen
    · exact .inl ⟨'\\' :: c :: body, rest, .escape c hbody, rfl⟩
    · exact .inr (.escape c hopen)
  | case4 c t hdangling hescape ih =>
    by_cases hquote : c = quote
    · exact .inl ⟨[], t, .nil, hquote ▸ rfl⟩
    have hslash : c ≠ '\\' := by
      rintro rfl
      cases t with
      | nil => exact hdangling rfl rfl
      | cons d rest => exact hescape d rest rfl rfl
    rcases ih with ⟨body, rest, hbody, rfl⟩ | hopen
    · exact .inl ⟨c :: body, rest, .plain hslash hquote hbody, rfl⟩
    · exact .inr (.plain hslash hquote hopen)

/-- A scan shows nothing behind the quote of a literal that is not closed. -/
theorem Unclosed.scanFrom_eq_nil (h : Unclosed quote t) (hquote : quote ≠ '\\')
    (before : List Char) : scanFrom brackets (.literal depth quote false) before t = [] := by
  induction h generalizing before with
  | nil => rfl
  | dangling =>
    rw [Text.scanFrom_cons_of_not_shows (shows_literal_of_ne (Ne.symm hquote))]
    rfl
  | escape c _ ih =>
    rw [Text.scanFrom_cons_of_not_shows (shows_literal_of_ne (Ne.symm hquote)),
      Text.scanFrom_cons_of_not_shows rfl]
    exact ih _
  | plain hslash hc _ ih =>
    rw [Text.scanFrom_cons_of_not_shows (shows_literal_of_ne hc), step_literal_of_ne hslash hc, ih]

end Stepwise.Expression
