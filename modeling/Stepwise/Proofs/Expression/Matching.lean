import Stepwise.Proofs.Expression.Nested
import Stepwise.Proofs.Expression.TopLevel

/-!
# Agreement of the scanners

Three readers look for the end of something that a character has opened. The scan of the top
level knows all brackets and literals, the search for a closing parenthesis knows parentheses and
literals, and the test for a string literal knows one literal only. Where brackets are nested, the
parenthesis that closes a group of the top level is the character that the scan shows next; and a
text is one string literal exactly if the scan shows its two ends and nothing else.

## Main definitions

* `Stepwise.Text.items` — the characters at the top level with their byte positions.

## Main results

* `Stepwise.Expression.Nested.exists_closing` — behind an opening parenthesis the scan shows the
  one that closes it.
* `Stepwise.Expression.items_eq_pair_iff` — when a scan shows two quotes only.
* `Stepwise.Expression.scanners_agree` — the three readers find the same ends.
-/

namespace Stepwise

/-- The characters at the top level of a text with their byte positions. -/
def Text.items (text : Text) : List (Nat × Char) :=
  (topLevel text).map fun spot => (spot.offset, spot.char)

namespace Expression

open Text (Brackets ScanState Spot byteLength isQuote items matchingParen scanFrom topLevel)

variable {c quote opening closing : Char} {t body rest : Text} {before : List Char}

/-! ### Groups -/

/-- Of a group only its two brackets are shown. -/
theorem scanFrom_group (hopening : Brackets.all.opens opening = true)
    (hclosing : Brackets.all.closes closing = true) (hbody : Balanced body) (before : List Char)
    (t : Text) :
    scanFrom .all (.code 0) before (opening :: (body ++ closing :: t)) =
      ⟨before, opening, body ++ closing :: t⟩ ::
        ⟨body.reverse ++ opening :: before, closing, t⟩ ::
          scanFrom .all (.code 0) (closing :: (body.reverse ++ opening :: before)) t := by
  have hshows : (ScanState.code 1).shows .all closing = true := by
    simp [ScanState.shows, hclosing]
  rw [Text.scanFrom_cons_of_shows rfl, step_opening hopening, hbody.hidden.scanFrom_append,
    Text.scanFrom_cons_of_shows hshows, step_closing hclosing]

/-- Behind an opening parenthesis of a nested text, the scan shows the one that closes it. -/
theorem Nested.exists_closing (h : Nested t) {earlier later : List Spot} {spot : Spot}
    (hscan : scanFrom .all (.code 0) before t = earlier ++ spot :: later)
    (hchar : spot.char = '(') :
    ∃ inner rest others, Nested inner ∧ spot.after = inner ++ ')' :: rest ∧
      later = ⟨inner.reverse ++ '(' :: spot.before, ')', rest⟩ :: others := by
  induction h generalizing before earlier with
  | nil => cases earlier <;> cases hscan
  | @plain c rest hc _ ih =>
    have hne : c ≠ '(' := by rintro rfl; exact hc (by decide)
    rw [Text.scanFrom_cons_of_shows rfl, step_of_not_mem_delimiters hc] at hscan
    match earlier with
    | [] => cases hscan; exact absurd hchar hne
    | first :: earlier => exact ih (List.cons.inj hscan).2
  | @literal quote body rest hquote hbody _ ih =>
    have hne : quote ≠ '(' := by rintro rfl; cases hquote
    rw [List.cons_append, List.append_assoc, List.singleton_append,
      scanFrom_quoted hquote hbody] at hscan
    match earlier with
    | [] => cases hscan; exact absurd hchar hne
    | [first] => cases hscan; exact absurd hchar hne
    | first :: second :: earlier => exact ih (List.cons.inj (List.cons.inj hscan).2).2
  | @group opening closing body rest hpair hbody _ _ ih =>
    obtain ⟨hopening, hclosing, hkind, hne⟩ : Brackets.all.opens opening = true ∧
        Brackets.all.closes closing = true ∧ (opening = '(' → closing = ')') ∧ closing ≠ '(' := by
      rcases mem_bracketPairs_iff.1 hpair with ⟨rfl, rfl⟩ | ⟨rfl, rfl⟩ | ⟨rfl, rfl⟩ <;> decide
    rw [List.cons_append, List.append_assoc, List.singleton_append,
      scanFrom_group hopening hclosing hbody.balanced] at hscan
    match earlier with
    | [] =>
      cases hscan
      obtain rfl : opening = '(' := hchar
      obtain rfl : closing = ')' := hkind rfl
      exact ⟨body, rest, _, hbody, rfl, rfl⟩
    | [first] => cases hscan; exact absurd hchar hne
    | first :: second :: earlier => exact ih (List.cons.inj (List.cons.inj hscan).2).2

/-- The closing parenthesis that is searched for is the one that the scan shows next. -/
theorem Nested.matchingParen_eq (h : Nested t) {earlier later : List (Nat × Char)} {place : Nat}
    (hitems : items t = earlier ++ (place, '(') :: later) :
    ∃ close others, later = (close, ')') :: others ∧ matchingParen t place = some close := by
  obtain ⟨spots, others, hscan, -, hothers⟩ := List.map_eq_append_iff.1 hitems
  obtain ⟨spot, others, rfl, hspot, rfl⟩ := List.map_eq_cons_iff.1 hothers
  obtain ⟨rfl, hchar⟩ := Prod.mk.inj hspot
  obtain ⟨inner, rest, shown, hinner, hafter, rfl⟩ := h.exists_closing hscan hchar
  refine ⟨_, _, rfl, ?_⟩
  have htext : t = spot.left ++ '(' :: (inner ++ ')' :: rest) := by
    have hmem : spot ∈ topLevel t := hscan ▸ List.mem_append_right _ List.mem_cons_self
    rw [← Text.text_of_mem_topLevel hmem, Spot.text, Spot.rest, hchar, hafter]
  have hplace : spot.offset = byteLength spot.left := (Text.byteLength_reverse _).symm
  rw [hplace, htext, matchingParen_eq_some_iff]
  refine ⟨inner, rest, rfl, hinner.roundNested, ?_⟩
  have hsize : '('.utf8Size = 1 := rfl
  simp only [Spot.offset, Spot.left, Text.byteLength_append, Text.byteLength_reverse,
    Text.byteLength_cons, hsize]
  omega

/-! ### Literals -/

/-- A text is one string literal if a body and the quote follow its quote. -/
theorem isSome_stringLiteral?_iff (hquote : isQuote quote = true) :
    (stringLiteral? (quote :: t)).isSome = true ↔
      ∃ body, LiteralBody quote body ∧ t = body ++ [quote] := by
  constructor
  · intro h
    rw [stringLiteral?] at h
    split at h
    · rename_i hliteral
      simp only [hquote, Bool.true_and, Bool.and_eq_true, beq_iff_eq] at hliteral
      obtain ⟨body, rfl⟩ := List.getLast?_eq_some_iff.1 hliteral.1
      rw [List.dropLast_concat] at hliteral
      exact ⟨body, isLiteralBody_iff.1 hliteral.2, rfl⟩
    · cases h
  · rintro ⟨body, hbody, rfl⟩
    rw [stringLiteral?_quoted hquote (isLiteralBody_iff.2 hbody)]
    rfl

theorem topLevel_unclosed (hquote : isQuote quote = true) (h : Unclosed quote t) :
    topLevel (quote :: t) = [⟨[], quote, t⟩] := by
  rw [topLevel, Text.scan, ScanState.start, Text.scanFrom_cons_of_shows rfl, step_quote hquote,
    h.scanFrom_eq_nil (ne_backslash_of_isQuote hquote)]

/-- A scan shows two quotes at the ends of a text, and nothing else, if a body and the quote
follow the first of them. -/
theorem items_eq_pair_iff (hquote : isQuote quote = true) :
    items (quote :: t) = [(0, quote), (byteLength (quote :: t) - 1, quote)] ↔
      ∃ body, LiteralBody quote body ∧ t = body ++ [quote] := by
  have hsize : quote.utf8Size = 1 := by
    rcases Text.isQuote_iff.1 hquote with rfl | rfl | rfl <;> rfl
  constructor
  · intro h
    have hlength := congrArg List.length h
    rw [items, List.length_map] at hlength
    rcases closed_or_unclosed quote t with ⟨body, rest, hbody, rfl⟩ | hopen
    · refine ⟨body, hbody, ?_⟩
      cases rest with
      | nil => rfl
      | cons c rest =>
        rw [topLevel, Text.scan, ScanState.start, scanFrom_quoted hquote hbody,
          Text.scanFrom_cons_of_shows rfl] at hlength
        simp at hlength
    · rw [topLevel_unclosed hquote hopen] at hlength
      cases hlength
  · rintro ⟨body, hbody, rfl⟩
    rw [items, topLevel, Text.scan, ScanState.start, scanFrom_quoted hquote hbody]
    simp [scanFrom, Spot.offset, hsize]

/-! ### Agreement -/

/-- The scanners agree. In a text whose literals are closed and whose brackets are nested, the
parenthesis that closes one of the top level is the next item of the scan. A text that starts with
a quote, whatever follows, is one string literal exactly if the scan yields two items: this quote,
and the same quote at the end of the text. -/
theorem scanners_agree :
    (∀ t : Text, Nested t → ∀ (earlier later : List (Nat × Char)) (place : Nat),
      items t = earlier ++ (place, '(') :: later →
        ∃ close others, later = (close, ')') :: others ∧ matchingParen t place = some close) ∧
    ∀ (t : Text) (quote : Char), t.head? = some quote → isQuote quote = true →
      ((stringLiteral? t).isSome = true ↔
        items t = [(0, quote), (byteLength t - 1, quote)]) := by
  refine ⟨fun t hnested earlier later place hitems => hnested.matchingParen_eq hitems, ?_⟩
  intro t quote hhead hquote
  obtain ⟨rest, rfl⟩ := List.head?_eq_some_iff.1 hhead
  rw [isSome_stringLiteral?_iff hquote, items_eq_pair_iff hquote]

/-- The group holds other brackets and a parenthesis in a literal; the literal holds its own quote
and an open group. -/
theorem scanners_agree_escaped :
    let text := "é([')', b], g(x)) - 1".toList
    let literal := "'it\\'s ('".toList
    Nested text ∧ items text = [(0, 'é'), (2, '('), (17, ')'), (18, ' '), (19, '-'), (20, ' '),
        (21, '1')] ∧ matchingParen text 2 = some 17 ∧
      items literal = [(0, '\x27'), (8, '\x27')] ∧ (stringLiteral? literal).isSome = true := by
  intro text literal
  have hquoted : Nested ('\x27' :: ([')'] ++ ['\x27']) ++ ", b".toList) :=
    .literal rfl (isLiteralBody_iff.1 (by decide)) (.of_all (by decide))
  have hcall : Nested ('(' :: ("x".toList ++ [')']) ++ []) :=
    .group (by decide) (.of_all (by decide)) .nil
  have hname : Nested ", g".toList := .of_all (by decide)
  have hsquare : Nested ('[' :: ("')', b".toList ++ [']']) ++ ", g(x)".toList) :=
    .group (by decide) hquoted (hname.append hcall)
  have hround : Nested ('(' :: ("[')', b], g(x)".toList ++ [')']) ++ " - 1".toList) :=
    .group (by decide) hsquare (.of_all (by decide))
  have hnested : Nested text := .plain (by decide) hround
  have hitems : items text = [(0, 'é')] ++ (2, '(') :: [(17, ')'), (18, ' '), (19, '-'),
      (20, ' '), (21, '1')] := by decide
  have hliteral : items literal = [(0, '\x27'), (byteLength literal - 1, '\x27')] := by decide
  obtain ⟨hgroups, hliterals⟩ := scanners_agree
  obtain ⟨close, others, hlater, hmatching⟩ := hgroups text hnested _ _ 2 hitems
  cases hlater
  exact ⟨hnested, hitems, hmatching, hliteral, (hliterals literal '\x27' rfl rfl).2 hliteral⟩

end Expression

end Stepwise
