import Stepwise.Proofs.Expression.Literal

/-!
# Matching parentheses

The parenthesis that closes a group is found by counting parentheses outside literals. This file
says without counting which one it is: the text before it has closed literals and nested
parentheses, and other brackets are characters like any other. The description is exact, so that
a group without such a parenthesis is not closed at all.

## Main definitions

* `Stepwise.Expression.RoundNested` — texts whose literals are closed and whose parentheses are
  nested.
* `Stepwise.Expression.Unwound` — texts that close some more parentheses than they open.

## Main results

* `Stepwise.Expression.RoundNested.scanFrom_append` — such a text is passed over in a group.
* `Stepwise.Expression.unwound_of_scanFrom` — what stands before the parenthesis that a scan
  comes to.
* `Stepwise.Expression.parenGroup_eq_some_iff`, `Stepwise.Expression.matchingParen_eq_some_iff` —
  the contents of a group and the place of the parenthesis that closes it.
-/

namespace Stepwise.Expression

open Text (Brackets ScanState Spot byteLength dropBytes isQuote matchingParen parenGroup scanFrom)

variable {c quote : Char} {s t inner body rest : Text} {depth : Nat} {before : List Char}

/-! ### One piece after the other -/

/-- A text in which every literal is closed and every parenthesis is closed by another one. -/
inductive RoundNested : Text → Prop where
  | nil : RoundNested []
  | plain {c : Char} {rest : Text} (hquote : isQuote c = false) (hopening : c ≠ '(')
      (hclosing : c ≠ ')') (hrest : RoundNested rest) : RoundNested (c :: rest)
  | literal {quote : Char} {body rest : Text} (hquote : isQuote quote = true)
      (hbody : LiteralBody quote body) (hrest : RoundNested rest) :
      RoundNested (quote :: (body ++ [quote]) ++ rest)
  | group {body rest : Text} (hbody : RoundNested body) (hrest : RoundNested rest) :
      RoundNested ('(' :: (body ++ [')']) ++ rest)

theorem RoundNested.append (hs : RoundNested s) (ht : RoundNested t) : RoundNested (s ++ t) := by
  induction hs with
  | nil => exact ht
  | plain hquote hopening hclosing _ ih => exact .plain hquote hopening hclosing ih
  | literal hquote hbody _ ih =>
    rw [List.append_assoc]
    exact .literal hquote hbody ih
  | group hbody _ _ ih =>
    rw [List.append_assoc]
    exact .group hbody ih

/-! ### Scanning inside parentheses -/

theorem scanFrom_round_plain (hquote : isQuote c = false) (hopening : c ≠ '(')
    (hclosing : c ≠ ')') (before : List Char) (t : Text) :
    scanFrom .round (.code (depth + 1)) before (c :: t) =
      scanFrom .round (.code (depth + 1)) (c :: before) t := by
  have hshows : (ScanState.code (depth + 1)).shows .round c = false := by
    simp [ScanState.shows, Brackets.round, hclosing]
  have hstep : (ScanState.code (depth + 1)).step .round c = .code (depth + 1) := by
    simp [ScanState.step, Brackets.round, hquote, hopening, hclosing]
  rw [Text.scanFrom_cons_of_not_shows hshows, hstep]

theorem scanFrom_round_quote (hquote : isQuote quote = true) (before : List Char) (t : Text) :
    scanFrom .round (.code (depth + 1)) before (quote :: t) =
      scanFrom .round (.literal (depth + 1) quote false) (quote :: before) t := by
  have hshows : (ScanState.code (depth + 1)).shows .round quote = false := by
    rcases Text.isQuote_iff.1 hquote with rfl | rfl | rfl <;>
      simp [ScanState.shows, Brackets.round]
  have hstep : (ScanState.code (depth + 1)).step .round quote =
      .literal (depth + 1) quote false := by simp [ScanState.step, hquote]
  rw [Text.scanFrom_cons_of_not_shows hshows, hstep]

theorem scanFrom_round_literal (hquote : isQuote quote = true) (hbody : LiteralBody quote body)
    (before : List Char) (t : Text) :
    scanFrom .round (.code (depth + 1)) before (quote :: (body ++ quote :: t)) =
      scanFrom .round (.code (depth + 1)) (quote :: (body.reverse ++ quote :: before)) t := by
  have hslash := ne_backslash_of_isQuote hquote
  have hshows : (ScanState.literal (depth + 1) quote false).shows .round quote = false := by
    simp [ScanState.shows]
  have hstep : (ScanState.literal (depth + 1) quote false).step .round quote =
      .code (depth + 1) := by simp [ScanState.step, hslash]
  rw [scanFrom_round_quote hquote, hbody.scanFrom_append hslash,
    Text.scanFrom_cons_of_not_shows hshows, hstep]

theorem scanFrom_round_opening (before : List Char) (t : Text) :
    scanFrom .round (.code (depth + 1)) before ('(' :: t) =
      scanFrom .round (.code (depth + 2)) ('(' :: before) t := by
  have hshows : (ScanState.code (depth + 1)).shows .round '(' = false := by
    simp [ScanState.shows, Brackets.round]
  rw [Text.scanFrom_cons_of_not_shows hshows]
  rfl

theorem scanFrom_round_closing (before : List Char) (t : Text) :
    scanFrom .round (.code (depth + 2)) before (')' :: t) =
      scanFrom .round (.code (depth + 1)) (')' :: before) t := by
  have hshows : (ScanState.code (depth + 2)).shows .round ')' = false := by
    simp [ScanState.shows]
  rw [Text.scanFrom_cons_of_not_shows hshows]
  rfl

/-- Inside parentheses a nested text is passed over: it closes all parentheses that it opens, and
no other. -/
theorem RoundNested.scanFrom_append (h : RoundNested s) (before : List Char) (t : Text) :
    scanFrom .round (.code (depth + 1)) before (s ++ t) =
      scanFrom .round (.code (depth + 1)) (s.reverse ++ before) t := by
  -- Parentheses inside the text are one deeper, so the induction is for all depths at once.
  induction h generalizing depth before t with
  | nil => rfl
  | plain hquote hopening hclosing _ ih =>
    rw [List.cons_append, scanFrom_round_plain hquote hopening hclosing, ih]
    simp
  | @literal quote body rest hquote hbody _ ih =>
    have hparts : quote :: (body ++ [quote]) ++ rest ++ t =
        quote :: (body ++ quote :: (rest ++ t)) := by simp
    rw [hparts, scanFrom_round_literal hquote hbody, ih]
    simp
  | @group body rest _ _ ihbody ihrest =>
    have hparts : '(' :: (body ++ [')']) ++ rest ++ t =
        '(' :: (body ++ ')' :: (rest ++ t)) := by simp
    rw [hparts, scanFrom_round_opening, ihbody, scanFrom_round_closing, ihrest]
    simp

/-! ### What a scan comes to -/

/-- A text that closes `depth` parentheses more than it opens: nested texts with a closing
parenthesis between neighbours. -/
inductive Unwound : Nat → Text → Prop where
  | zero {t : Text} (h : RoundNested t) : Unwound 0 t
  | succ {s t : Text} {depth : Nat} (hs : RoundNested s) (ht : Unwound depth t) :
      Unwound (depth + 1) (s ++ ')' :: t)

theorem RoundNested.append_unwound (hs : RoundNested s) (ht : Unwound depth t) :
    Unwound depth (s ++ t) := by
  cases ht with
  | zero ht => exact .zero (hs.append ht)
  | succ hfirst ht =>
    rw [← List.append_assoc]
    exact .succ (hs.append hfirst) ht

/-- The first character that a scan shows inside parentheses is the one that closes the outermost
of them, and the text before it closes all others. -/
theorem unwound_of_scanFrom {spot : Spot} {others : List Spot}
    (h : scanFrom .round (.code (depth + 1)) before t = spot :: others) :
    ∃ inner rest, t = inner ++ ')' :: rest ∧ Unwound depth inner ∧
      spot = ⟨inner.reverse ++ before, ')', rest⟩ := by
  -- A literal is passed as a whole, so the induction is on the length of the text.
  induction hlength : t.length using Nat.strongRecOn generalizing t depth before with
  | ind n ih =>
    subst hlength
    cases t with
    | nil => cases h
    | cons c t =>
      by_cases hquote : isQuote c = true
      · rcases closed_or_unclosed c t with ⟨body, after, hbody, rfl⟩ | hopen
        · rw [scanFrom_round_literal hquote hbody] at h
          obtain ⟨inner, rest, rfl, hinner, rfl⟩ := ih _ (by simp; omega) h rfl
          refine ⟨c :: (body ++ [c]) ++ inner, rest, by simp, ?_, by simp⟩
          have hliteral := RoundNested.literal hquote hbody .nil
          rw [List.append_nil] at hliteral
          exact hliteral.append_unwound hinner
        · rw [scanFrom_round_quote hquote,
            hopen.scanFrom_eq_nil (ne_backslash_of_isQuote hquote)] at h
          cases h
      by_cases hopening : c = '('
      · subst hopening
        rw [scanFrom_round_opening] at h
        obtain ⟨inner, rest, rfl, hinner, rfl⟩ := ih _ (by simp) h rfl
        cases hinner with
        | @succ body outer _ hbody houter =>
          refine ⟨'(' :: (body ++ [')']) ++ outer, rest, by simp, ?_, by simp⟩
          have hgroup := RoundNested.group hbody .nil
          rw [List.append_nil] at hgroup
          exact hgroup.append_unwound houter
      by_cases hclosing : c = ')'
      · subst hclosing
        cases depth with
        | zero =>
          rw [Text.scanFrom_cons_of_shows rfl] at h
          cases h
          exact ⟨[], t, rfl, .zero .nil, rfl⟩
        | succ depth =>
          rw [scanFrom_round_closing] at h
          obtain ⟨inner, rest, rfl, hinner, rfl⟩ := ih _ (by simp) h rfl
          exact ⟨')' :: inner, rest, rfl, .succ .nil hinner, by simp⟩
      rw [scanFrom_round_plain (Bool.eq_false_iff.2 hquote) hopening hclosing] at h
      obtain ⟨inner, rest, rfl, hinner, rfl⟩ := ih _ (by simp) h rfl
      have hplain := RoundNested.plain (Bool.eq_false_iff.2 hquote) hopening hclosing .nil
      exact ⟨c :: inner, rest, rfl, hplain.append_unwound hinner, by simp⟩

/-! ### Groups -/

/-- A group is closed by the parenthesis before which all parentheses are nested and all literals
are closed, and it is not closed if there is none. -/
theorem closingSpot?_eq_some_iff {close : Spot} :
    Text.closingSpot? ('(' :: t) = some close ↔
      ∃ inner rest, t = inner ++ ')' :: rest ∧ RoundNested inner ∧
        close = ⟨inner.reverse ++ ['('], ')', rest⟩ := by
  have hscan : Text.scan .round ('(' :: t) =
      ⟨[], '(', t⟩ :: scanFrom .round (.code 1) ['('] t := Text.scanFrom_cons_of_shows rfl
  rw [Text.closingSpot?, hscan]
  constructor
  · intro h
    cases hrest : scanFrom .round (.code 1) ['('] t with
    | nil => rw [hrest] at h; cases h
    | cons spot others =>
      rw [hrest] at h
      cases h
      obtain ⟨inner, rest, rfl, hinner, rfl⟩ := unwound_of_scanFrom hrest
      cases hinner with
      | zero hnested => exact ⟨inner, rest, rfl, hnested, rfl⟩
  · rintro ⟨inner, rest, rfl, hinner, rfl⟩
    have hpassed : scanFrom .round (.code 1) ['('] (inner ++ ')' :: rest) =
        scanFrom .round (.code 1) (inner.reverse ++ ['(']) (')' :: rest) :=
      hinner.scanFrom_append ['('] (')' :: rest)
    rw [hpassed, Text.scanFrom_cons_of_shows rfl]

/-- The contents of the group with which a text starts. -/
theorem parenGroup_eq_some_iff :
    parenGroup ('(' :: t) = some inner ↔
      RoundNested inner ∧ ∃ rest, t = inner ++ ')' :: rest := by
  simp only [parenGroup, Option.map_eq_some_iff, closingSpot?_eq_some_iff]
  constructor
  · rintro ⟨close, ⟨inner, rest, rfl, hinner, rfl⟩, rfl⟩
    have hleft : (Spot.mk (inner.reverse ++ ['(']) ')' rest).left.drop 1 = inner := by
      simp [Spot.left]
    rw [hleft]
    exact ⟨hinner, rest, rfl⟩
  · rintro ⟨hinner, rest, rfl⟩
    exact ⟨_, ⟨inner, rest, rfl, hinner, rfl⟩, by simp [Spot.left]⟩

/-- The bytes of a leading part are dropped as this part is. -/
theorem dropBytes_byteLength (s t : Text) : dropBytes (byteLength s) (s ++ t) = t := by
  induction s with
  | nil => cases t <;> rfl
  | cons c s ih =>
    obtain ⟨n, hn⟩ : ∃ n, c.utf8Size + byteLength s = n + 1 :=
      Nat.exists_eq_add_one_of_ne_zero (by have := c.utf8Size_pos; omega)
    rw [Text.byteLength_cons, hn, List.cons_append, dropBytes, ← hn, Nat.add_sub_cancel_left, ih]

/-- The place of the parenthesis that closes the one behind a text. -/
theorem matchingParen_eq_some_iff {close : Nat} :
    matchingParen (s ++ '(' :: t) (byteLength s) = some close ↔
      ∃ inner rest, t = inner ++ ')' :: rest ∧ RoundNested inner ∧
        close = byteLength s + (1 + byteLength inner) := by
  have hsize : '('.utf8Size = 1 := rfl
  simp only [matchingParen, dropBytes_byteLength, Option.map_eq_some_iff, closingSpot?_eq_some_iff]
  constructor
  · rintro ⟨close, ⟨inner, rest, rfl, hinner, rfl⟩, rfl⟩
    refine ⟨inner, rest, rfl, hinner, ?_⟩
    simp [Spot.offset, hsize, Nat.add_comm]
  · rintro ⟨inner, rest, rfl, hinner, rfl⟩
    refine ⟨_, ⟨inner, rest, rfl, hinner, rfl⟩, ?_⟩
    simp [Spot.offset, hsize, Nat.add_comm]

end Stepwise.Expression
