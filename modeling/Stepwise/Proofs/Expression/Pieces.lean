import Stepwise.Proofs.Expression.Replacement

/-!
# The pieces of a list

A list is split at the separators that a scan shows. The pieces with separators between them
are the list again, and there is one more of them than separators. The scan comes to every
separator outside literals and groups, even in a text with open literals, open groups or
closing brackets that close nothing, so each piece is scanned as it was scanned in the list
and is not split any further.

## Main definitions

* `Stepwise.Expression.Unsplit` — a scan shows no separator in the text.

## Main results

* `Stepwise.Expression.join_splitFrom` — the pieces make up the text.
* `Stepwise.Expression.length_splitFrom` — how many pieces there are.
* `Stepwise.Expression.unsplit_splitFrom` — no piece shows a separator.
* `Stepwise.Expression.splitTopLevel_complete` — splitting loses nothing and leaves nothing.
-/

namespace Stepwise.Expression

open Text (ScanState Spot isQuote scanFrom splitFrom splitTopLevel topLevel)

variable {separator c : Char} {state : ScanState} {t piece : Text} {others : List Text}

/-! ### One character -/

theorem splitFrom_cons_of_splits (h : (state.shows .all c && c == separator) = true) :
    splitFrom separator state (c :: t) = [] :: splitFrom separator (state.step .all c) t := by
  rw [splitFrom, if_pos h]

theorem splitFrom_cons_of_not_splits (h : ¬ (state.shows .all c && c == separator) = true)
    (hrest : splitFrom separator (state.step .all c) t = piece :: others) :
    splitFrom separator state (c :: t) = (c :: piece) :: others := by
  rw [splitFrom, if_neg h, hrest]

/-! ### Joining and counting -/

/-- The pieces with separators between them make up the text. -/
theorem join_splitFrom (separator : Char) (state : ScanState) (t : Text) :
    Text.join [separator] (splitFrom separator state t) = t := by
  induction t generalizing state with
  | nil => rfl
  | cons c t ih =>
    obtain ⟨piece, others, hrest⟩ := exists_splitFrom_eq_cons separator (state.step .all c) t
    have hjoin := ih (state.step .all c)
    rw [hrest] at hjoin
    by_cases hsplits : (state.shows .all c && c == separator) = true
    · rw [splitFrom_cons_of_splits hsplits, hrest, Text.join, hjoin]
      · rw [Bool.and_eq_true, beq_iff_eq] at hsplits
        rw [hsplits.2]
        rfl
      · exact List.cons_ne_nil piece others
    · rw [splitFrom_cons_of_not_splits hsplits hrest, ← hjoin]
      cases others <;> rfl

/-- There is one more piece than separators that a scan shows. -/
theorem length_splitFrom (separator : Char) (state : ScanState) (before : List Char) (t : Text) :
    (splitFrom separator state t).length =
      (scanFrom .all state before t).countP (fun spot => spot.char == separator) + 1 := by
  induction t generalizing state before with
  | nil => rfl
  | cons c t ih =>
    obtain ⟨piece, others, hrest⟩ := exists_splitFrom_eq_cons separator (state.step .all c) t
    have hlength := ih (state.step .all c) (c :: before)
    by_cases hsplits : (state.shows .all c && c == separator) = true
    · rw [splitFrom_cons_of_splits hsplits, List.length_cons, hlength]
      rw [Bool.and_eq_true] at hsplits
      rw [Text.scanFrom_cons_of_shows hsplits.1, List.countP_cons, if_pos hsplits.2]
    · rw [splitFrom_cons_of_not_splits hsplits hrest, List.length_cons]
      rw [hrest, List.length_cons] at hlength
      cases hshows : state.shows .all c with
      | true =>
        rw [hshows, Bool.true_and] at hsplits
        rw [Text.scanFrom_cons_of_shows hshows, List.countP_cons, if_neg hsplits, hlength]
      | false => rw [Text.scanFrom_cons_of_not_shows hshows, hlength]

/-! ### Scanning the pieces -/

/-- A scan of the text from the given state shows no separator. -/
def Unsplit (separator : Char) (state : ScanState) (text : Text) : Prop :=
  ∀ before, ∀ spot ∈ scanFrom .all state before text, spot.char ≠ separator

theorem Unsplit.cons (hc : ¬ (state.shows .all c && c == separator) = true)
    (ht : Unsplit separator (state.step .all c) t) : Unsplit separator state (c :: t) := by
  intro before spot hspot
  rw [scanFrom] at hspot
  split at hspot
  · rename_i hshows
    rcases List.mem_cons.1 hspot with rfl | hspot
    · rintro rfl
      exact hc (by simp [hshows])
    · exact ht _ spot hspot
  · exact ht _ spot hspot

/-- The literal in which a scan stands, if there is one, was opened by a quote. -/
def OpenedByQuote : ScanState → Prop
  | .code _ => True
  | .literal _ quote _ => isQuote quote = true

theorem OpenedByQuote.step (h : OpenedByQuote state) (c : Char) :
    OpenedByQuote (state.step .all c) := by
  cases state with
  | code depth =>
    simp only [ScanState.step]
    split
    · assumption
    · split
      · trivial
      · split <;> trivial
  | literal depth quote escaped =>
    cases escaped with
    | true => exact h
    | false =>
      simp only [ScanState.step]
      split
      · exact h
      · split
        · trivial
        · exact h

/-- A scan comes to a separator outside literals and groups, and leaves it there. -/
theorem eq_start_of_shows (hseparator : separator ∉ delimiters) (hopened : OpenedByQuote state)
    (hshows : state.shows .all separator = true) :
    state = .start ∧ state.step .all separator = .start := by
  cases state with
  | code depth =>
    have hcloses : Text.Brackets.all.closes separator = false :=
      Bool.eq_false_iff.2 (mt mem_delimiters_of_closes hseparator)
    have hdepth : depth = 0 := by simpa [ScanState.shows, hcloses] using hshows
    subst hdepth
    exact ⟨rfl, step_of_not_mem_delimiters hseparator⟩
  | literal depth quote escaped =>
    have hquote : separator = quote := by
      simp only [ScanState.shows, Bool.and_eq_true, beq_iff_eq] at hshows
      exact hshows.1.2
    exact absurd (mem_delimiters_of_isQuote (hquote ▸ hopened)) hseparator

/-- No piece shows a separator: the first one is scanned from the state in which the list is,
and all others as texts of their own. -/
theorem unsplit_splitFrom (hseparator : separator ∉ delimiters) (hopened : OpenedByQuote state)
    (hsplit : splitFrom separator state t = piece :: others) :
    Unsplit separator state piece ∧ ∀ other ∈ others, Unsplit separator .start other := by
  induction t generalizing state piece others with
  | nil =>
    cases hsplit
    exact ⟨fun _ _ h => (List.not_mem_nil h).elim, fun _ h => (List.not_mem_nil h).elim⟩
  | cons c t ih =>
    obtain ⟨first, rest, hrest⟩ := exists_splitFrom_eq_cons separator (state.step .all c) t
    obtain ⟨hfirst, hothers⟩ := ih (hopened.step c) hrest
    by_cases hsplits : (state.shows .all c && c == separator) = true
    · rw [splitFrom_cons_of_splits hsplits, hrest] at hsplit
      cases hsplit
      rw [Bool.and_eq_true, beq_iff_eq] at hsplits
      obtain ⟨hshows, rfl⟩ := hsplits
      rw [(eq_start_of_shows hseparator hopened hshows).2] at hfirst
      exact ⟨fun _ _ h => (List.not_mem_nil h).elim, List.forall_mem_cons.2 ⟨hfirst, hothers⟩⟩
    · rw [splitFrom_cons_of_not_splits hsplits hrest] at hsplit
      cases hsplit
      exact ⟨hfirst.cons hsplits, hothers⟩

/-- Splitting a list loses nothing and leaves nothing to split. For a separator that is neither
a quote nor a bracket, the pieces of any text with separators between them are the text again,
there is one more of them than separators at the top level, and each piece is split into just
itself. -/
theorem splitTopLevel_complete (separator : Char) (hseparator : separator ∉ delimiters)
    (t : Text) :
    Text.join [separator] (splitTopLevel separator t) = t ∧
      (splitTopLevel separator t).length =
        (topLevel t).countP (fun spot => spot.char == separator) + 1 ∧
      ∀ piece ∈ splitTopLevel separator t, splitTopLevel separator piece = [piece] := by
  refine ⟨join_splitFrom separator .start t, length_splitFrom separator .start [] t, ?_⟩
  obtain ⟨first, others, hsplit⟩ := exists_splitFrom_eq_cons separator .start t
  have hopened : OpenedByQuote .start := trivial
  obtain ⟨hfirst, hothers⟩ := unsplit_splitFrom hseparator hopened hsplit
  rw [splitTopLevel, hsplit]
  intro piece hpiece
  rcases List.mem_cons.1 hpiece with rfl | hpiece
  · exact splitTopLevel_of_forall (hfirst [])
  · exact splitTopLevel_of_forall (hothers piece hpiece [])

/-- A bracket that closes nothing, a group with a separator in it and an open literal: the text
has three pieces. -/
theorem splitTopLevel_complete_open :
    '→' ∉ delimiters ∧
      splitTopLevel '→' "a)→(b→c)→'d→".toList =
        ["a)".toList, "(b→c)".toList, "'d→".toList] ∧
      Text.join ['→'] ["a)".toList, "(b→c)".toList, "'d→".toList] = "a)→(b→c)→'d→".toList ∧
      splitTopLevel '→' "'d→".toList = ["'d→".toList] := by
  have hseparator : '→' ∉ delimiters := by decide
  have hsplit : splitTopLevel '→' "a)→(b→c)→'d→".toList =
      ["a)".toList, "(b→c)".toList, "'d→".toList] := by decide
  obtain ⟨hjoin, _, hpieces⟩ := splitTopLevel_complete '→' hseparator "a)→(b→c)→'d→".toList
  rw [hsplit] at hjoin hpieces
  exact ⟨hseparator, hsplit, hjoin, hpieces _ (by simp)⟩

end Stepwise.Expression
