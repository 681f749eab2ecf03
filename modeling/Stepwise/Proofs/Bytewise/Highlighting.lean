import Stepwise.Pane.Highlight
import Stepwise.Proofs.Bytewise.Slices

/-!
# Highlighting by positions

A line is highlighted by a loop over the positions of its characters. It collects words character
by character, and slices literals and comments out of the line by the byte positions of the
characters they start with. Where a literal ends is searched for by position, too; a backslash at
the end of the line moves this search one position too far. The loop comes to no fault all the
same, is through after one round for each character at most, and gives the spans of the line.

## Main definitions

* `Stepwise.Bytewise.literalStop` — where the search for the end of a literal stops.
* `Stepwise.Bytewise.Sketch` — what the loop has collected.
* `Stepwise.Bytewise.highlightWithin` — highlighting by positions with a bound on the rounds.

## Main results

* `Stepwise.Bytewise.slice_literal` — a literal is sliced between two characters.
* `Stepwise.Bytewise.highlightWithin_eq` — more rounds than the line has characters suffice.
-/

namespace Stepwise.Bytewise

open Pane (highlightFrom isBracket splitLiteral wordSpan wordStyle)
open Screen (Span Style)
open Screen.Theme
open Text (byteLength isQuote isWordChar)

variable {s t : Text} {c quote : Char} {rounds : Nat}

/-! ### Characters by number -/

/-- The character with a number, and its byte position. -/
def itemAt (chars : List (Nat × Char)) (i : Nat) : Checked (Nat × Char) :=
  match chars[i]? with
  | some item => .ok item
  | none => .error .index

theorem length_indicesFrom (place : Nat) (t : Text) : (indicesFrom place t).length = t.length := by
  induction t generalizing place with
  | nil => rfl
  | cons c t ih => rw [indicesFrom, List.length_cons, ih, List.length_cons]

@[simp] theorem length_indices (t : Text) : (indices t).length = t.length :=
  length_indicesFrom 0 t

theorem getElem?_indices_append (s t : Text) (i : Nat) :
    (indices (s ++ t))[s.length + i]? = (indicesFrom (byteLength s) t)[i]? := by
  rw [indices_append, List.getElem?_append_right, length_indices, Nat.add_sub_cancel_left]
  exact (length_indices s).symm ▸ Nat.le_add_right s.length i

theorem itemAt_indices (s : Text) (c : Char) (t : Text) :
    itemAt (indices (s ++ c :: t)) s.length = .ok (byteLength s, c) := by
  have hread := getElem?_indices_append s (c :: t) 0
  rw [Nat.add_zero] at hread
  rw [itemAt, hread]
  rfl

theorem getElem?_indices_succ (s : Text) (c : Char) (t : Text) :
    ((indices (s ++ c :: t))[s.length + 1]?).map Prod.snd = t.head? := by
  rw [getElem?_indices_append]
  cases t <;> rfl

/-- The byte position at which a part of the text ends. -/
theorem elim_getElem?_indices (s t : Text) :
    ((indices (s ++ t))[s.length]?).elim (byteLength (s ++ t)) Prod.fst = byteLength s := by
  have hread := getElem?_indices_append s t 0
  rw [Nat.add_zero] at hread
  rw [hread]
  cases t with
  | nil => rw [List.append_nil]; rfl
  | cons c t => rfl

/-! ### Literals -/

/-- Where the search for the end of a literal stops, which goes on at `stop`. A backslash takes
the next character with it, even where there is none. -/
def literalStop (chars : List (Nat × Char)) (quote : Char) (stop : Nat) : Checked Nat :=
  if stop < chars.length then do
    let (_, c) ← itemAt chars stop
    if c = quote then return stop
    else literalStop chars quote (stop + if c = '\\' then 2 else 1)
  else return stop
termination_by chars.length - stop
decreasing_by split <;> omega

theorem literalStop_of_length_le {chars : List (Nat × Char)} {stop : Nat}
    (h : chars.length ≤ stop) : literalStop chars quote stop = .ok stop := by
  rw [literalStop, if_neg h.not_gt]
  rfl

theorem literalStop_cons (quote : Char) (s : Text) (c : Char) (t : Text) :
    literalStop (indices (s ++ c :: t)) quote s.length =
      if c = quote then .ok s.length
      else literalStop (indices (s ++ c :: t)) quote (s.length + if c = '\\' then 2 else 1) := by
  have hlt : s.length < (indices (s ++ c :: t)).length := by simp
  rw [literalStop, if_pos hlt, itemAt_indices, ok_bind]
  rfl

/-- The search comes to no fault. One position behind its stop, but not behind the line, the
literal ends. -/
theorem literalStop_eq (quote : Char) (s t : Text) :
    ∃ stop, literalStop (indices (s ++ t)) quote s.length = .ok stop ∧
      min (stop + 1) (s ++ t).length = s.length + (splitLiteral quote t).1.length := by
  fun_induction splitLiteral quote t generalizing s with
  | case1 =>
    refine ⟨s.length, literalStop_of_length_le (by simp), ?_⟩
    simp
  | case2 rest =>
    refine ⟨s.length, by rw [literalStop_cons, if_pos rfl], ?_⟩
    simp
  | case3 hquote =>
    -- The search has passed the end of the line.
    refine ⟨s.length + 2, ?_, by simp⟩
    rw [literalStop_cons, if_neg hquote, if_pos rfl]
    exact literalStop_of_length_le (by simp)
  | case4 d rest literal after hsplit hquote ih =>
    obtain ⟨stop, hstop, hmin⟩ := ih (s ++ ['\\', d])
    refine ⟨stop, ?_, ?_⟩
    · rw [literalStop_cons, if_neg hquote, if_pos rfl]
      simpa using hstop
    · simp only [List.append_assoc, List.cons_append, List.nil_append, List.length_append,
        List.length_cons, List.length_nil, hsplit] at hmin ⊢
      omega
  | case5 c rest hquote hslash literal after hsplit ih =>
    obtain ⟨stop, hstop, hmin⟩ := ih (s ++ [c])
    refine ⟨stop, ?_, ?_⟩
    · rw [literalStop_cons, if_neg hquote, if_neg hslash]
      simpa using hstop
    · simp only [List.append_assoc, List.cons_append, List.nil_append, List.length_append,
        List.length_cons, List.length_nil, hsplit] at hmin ⊢
      omega

/-! ### The loop -/

/-- What the loop has collected: the spans of what it has passed, and a word that may go on. -/
structure Sketch where
  spans : List Span
  word : Text

namespace Sketch

/-- The sketch with the word ended, if there is one. -/
def endWord (sketch : Sketch) (called : Bool) : Sketch :=
  if sketch.word.isEmpty then sketch
  else ⟨sketch.spans ++ [⟨sketch.word, wordStyle sketch.word called⟩], []⟩

/-- The sketch with one more span. -/
def push (sketch : Sketch) (span : Span) : Sketch :=
  { sketch with spans := sketch.spans ++ [span] }

theorem endWord_spans (sketch : Sketch) (called : Bool) :
    (sketch.endWord called).spans = sketch.spans ++ wordSpan sketch.word.reverse called := by
  obtain ⟨spans, word⟩ := sketch
  cases word <;> simp [endWord, wordSpan]

@[simp] theorem endWord_word (sketch : Sketch) (called : Bool) :
    (sketch.endWord called).word = [] := by
  obtain ⟨spans, word⟩ := sketch
  cases word <;> rfl

end Sketch

/-- The loop from the character with number `i` on. -/
def highlightRounds (line : Text) (chars : List (Nat × Char)) :
    Nat → Nat → Sketch → Checked Sketch
  | 0, _, _ => .error .rounds
  | rounds + 1, i, sketch =>
    if i < chars.length then do
      let (offset, c) ← itemAt chars i
      if c == '/' && (chars[i + 1]?).map Prod.snd == some '/' then
        let comment ← sliceFrom line offset
        return (sketch.endWord false).push ⟨comment, .ofColor muted⟩
      else if isQuote c then
        let stop ← literalStop chars c (i + 1)
        let next := min (stop + 1) chars.length
        let literal ← slice line offset ((chars[next]?).elim (byteLength line) Prod.fst)
        highlightRounds line chars rounds next
          ((sketch.endWord false).push ⟨literal, .ofColor peach⟩)
      else if isWordChar c then
        highlightRounds line chars rounds (i + 1) { sketch with word := sketch.word ++ [c] }
      else
        highlightRounds line chars rounds (i + 1) ((sketch.endWord (c == '(')).push
          ⟨[c], .ofColor (if isBracket c then blue else text)⟩)
    else return sketch

/-- The spans of a line, for which the loop is allowed some number of rounds. -/
def highlightWithin (rounds : Nat) (line : Text) : Checked (List Span) := do
  let sketch ← highlightRounds line (indices line) rounds 0 ⟨[], []⟩
  return (sketch.endWord false).spans

/-- A literal is sliced from its quote to where the search for its end leads. -/
theorem slice_literal (quote : Char) (s t : Text) :
    ∃ stop, literalStop (indices (s ++ quote :: t)) quote (s.length + 1) = .ok stop ∧
      min (stop + 1) (indices (s ++ quote :: t)).length =
        (s ++ quote :: (splitLiteral quote t).1).length ∧
      slice (s ++ quote :: t) (byteLength s)
          (((indices (s ++ quote :: t))[min (stop + 1) (indices (s ++ quote :: t)).length]?).elim
            (byteLength (s ++ quote :: t)) Prod.fst) =
        .ok (quote :: (splitLiteral quote t).1) := by
  obtain ⟨stop, hstop, hmin⟩ := literalStop_eq quote (s ++ [quote]) t
  rw [List.append_assoc, List.singleton_append] at hstop hmin
  have hnext : min (stop + 1) (indices (s ++ quote :: t)).length =
      (s ++ quote :: (splitLiteral quote t).1).length := by
    rw [length_indices, hmin, ← List.length_append, List.append_assoc, List.singleton_append]
  have hline : s ++ quote :: t =
      s ++ quote :: (splitLiteral quote t).1 ++ (splitLiteral quote t).2 := by
    rw [List.append_assoc, List.cons_append, Pane.splitLiteral_append]
  refine ⟨stop, by simpa using hstop, hnext, ?_⟩
  rw [hnext]
  generalize splitLiteral quote t = literal at hline ⊢
  rw [hline, elim_getElem?_indices, Text.byteLength_append, List.append_assoc]
  exact slice_append s (quote :: literal.1) literal.2

/-- From any character on the loop is through after one round for each character that is left. -/
theorem highlightRounds_eq (h : t.length < rounds) (s : Text) (sketch : Sketch) :
    ∃ result, highlightRounds (s ++ t) (indices (s ++ t)) rounds s.length sketch = .ok result ∧
      (result.endWord false).spans =
        sketch.spans ++ highlightFrom sketch.word.reverse t := by
  -- A round passes at least one character, and what it passes joins `s`.
  induction rounds generalizing s t sketch with
  | zero => cases h
  | succ rounds ih =>
    cases t with
    | nil =>
      refine ⟨sketch, ?_, ?_⟩
      · rw [highlightRounds, if_neg (by simp)]
        rfl
      · rw [Sketch.endWord_spans, highlightFrom]
    | cons c t =>
      have hrest : t.length < rounds := Nat.lt_of_succ_lt_succ h
      have hlt : s.length < (indices (s ++ c :: t)).length := by simp
      have hpassed : s ++ [c] ++ t = s ++ c :: t := by simp
      have hlength : (s ++ [c]).length = s.length + 1 := List.length_append
      rw [highlightRounds, if_pos hlt, itemAt_indices, ok_bind, getElem?_indices_succ,
        highlightFrom]
      dsimp only
      split
      · rw [sliceFrom_append, ok_bind]
        refine ⟨_, rfl, ?_⟩
        simp [Sketch.endWord_spans, Sketch.push, wordSpan]
      split
      · obtain ⟨stop, hstop, hnext, hslice⟩ := slice_literal c s t
        rw [hstop, ok_bind, hslice, ok_bind, hnext]
        have hline : s ++ c :: (splitLiteral c t).1 ++ (splitLiteral c t).2 = s ++ c :: t := by
          rw [List.append_assoc, List.cons_append, Pane.splitLiteral_append]
        have hshorter : (splitLiteral c t).2.length < rounds :=
          (Pane.length_splitLiteral_le c t).trans_lt hrest
        obtain ⟨result, hresult, hspans⟩ := ih hshorter (s ++ c :: (splitLiteral c t).1)
          ((sketch.endWord false).push ⟨c :: (splitLiteral c t).1, .ofColor peach⟩)
        rw [hline] at hresult
        refine ⟨result, hresult, ?_⟩
        simp [hspans, Sketch.endWord_spans, Sketch.push]
      split
      · obtain ⟨result, hresult, hspans⟩ := ih hrest (s ++ [c])
          { sketch with word := sketch.word ++ [c] }
        rw [hpassed, hlength] at hresult
        refine ⟨result, hresult, ?_⟩
        simp [hspans]
      · obtain ⟨result, hresult, hspans⟩ := ih hrest (s ++ [c])
          ((sketch.endWord (c == '(')).push
            ⟨[c], .ofColor (if isBracket c then blue else text)⟩)
        rw [hpassed, hlength] at hresult
        refine ⟨result, hresult, ?_⟩
        simp [hspans, Sketch.endWord_spans, Sketch.push]

/-- More rounds than the line has characters suffice, and no fault occurs in them. -/
theorem highlightWithin_eq {line : Text} (h : line.length < rounds) :
    highlightWithin rounds line = .ok (Pane.highlight line) := by
  obtain ⟨sketch, hsketch, hspans⟩ := highlightRounds_eq h [] ⟨[], []⟩
  rw [List.nil_append, List.length_nil] at hsketch
  rw [highlightWithin, hsketch, ok_bind, hspans]
  rfl

end Stepwise.Bytewise
