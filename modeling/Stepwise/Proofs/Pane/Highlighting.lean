import Stepwise.Proofs.Bytewise.Highlighting
import Stepwise.Proofs.Expression.Matching

/-!
# Highlighting loses nothing

The spans of a highlighted line make up the line, and none of them is empty. The quotes outside of literals and comments are those at which a span
starts. The highlighter looks for the other end of the literal by itself; it finds the quote that a
scan of the top level finds, and where the scan finds none the literal takes the rest of the line.

## Main definitions

* `Stepwise.Pane.ScannedLiteral` — the literal that a quote opens, as a scan sees it.
* `Stepwise.Pane.Outside` — the places of a line outside of literals and comments.

## Main results

* `Stepwise.Pane.scannedLiteral_splitLiteral` — the highlighter ends a literal where a scan does.
* `Stepwise.Pane.flatMap_highlightFrom` — the spans make up the line.
* `Stepwise.Pane.Outside.highlightFrom_append`, `Stepwise.Pane.exists_outside_of_highlightFrom` —
  the highlighter gets to every place outside of literals and comments, and starts literals at no
  other one.
* `Stepwise.Pane.highlight_faithful` — nothing is lost, and literals end where a scan ends them.
-/

namespace Stepwise.Pane

open Expression (LiteralBody Unclosed)
open Screen (Span Style)
open Screen.Theme
open Text (IsBoundary isQuote topLevel)

variable {c quote : Char} {s t body word : Text}

/-! ### Ends of literals -/

theorem splitLiteral_quote (rest : Text) :
    splitLiteral quote (quote :: rest) = ([quote], rest) := by
  cases rest <;> simp [splitLiteral]

theorem splitLiteral_plain (hslash : c ≠ '\\') (hquote : c ≠ quote) (rest : Text) :
    splitLiteral quote (c :: rest) =
      (c :: (splitLiteral quote rest).1, (splitLiteral quote rest).2) := by
  cases rest <;> simp [splitLiteral, hslash, hquote]

theorem splitLiteral_closed (h : LiteralBody quote body) (hquote : quote ≠ '\\') (rest : Text) :
    splitLiteral quote (body ++ quote :: rest) = (body ++ [quote], rest) := by
  induction h with
  | nil => exact splitLiteral_quote rest
  | escape c _ ih => simp [splitLiteral, Ne.symm hquote, ih]
  | plain hslash hc _ ih => simp [splitLiteral_plain hslash hc, ih]

theorem splitLiteral_unclosed (h : Unclosed quote t) (hquote : quote ≠ '\\') :
    splitLiteral quote t = (t, []) := by
  induction h with
  | nil => rfl
  | dangling => simp [splitLiteral, Ne.symm hquote]
  | escape c _ ih => simp [splitLiteral, Ne.symm hquote, ih]
  | plain hslash hc _ ih => rw [splitLiteral_plain hslash hc, ih]

/-- The literal that a quote opens in front of `t`, as a scan of the top level sees it: up to the
closing quote that the scan shows next, or all of the text if it shows nothing more. -/
inductive ScannedLiteral (quote : Char) (t : Text) : Text → Prop where
  | closed {opening close : Text.Spot} {others : List Text.Spot}
      (scan : topLevel (quote :: t) = opening :: close :: others) (same : close.char = quote) :
      ScannedLiteral quote t (close.left ++ [quote])
  | unclosed {opening : Text.Spot} (scan : topLevel (quote :: t) = [opening]) :
      ScannedLiteral quote t (quote :: t)

/-- The highlighter ends a literal where a scan ends it. -/
theorem scannedLiteral_splitLiteral (hquote : isQuote quote = true) (t : Text) :
    ScannedLiteral quote t (quote :: (splitLiteral quote t).1) := by
  have hslash := Expression.ne_backslash_of_isQuote hquote
  rcases Expression.closed_or_unclosed quote t with ⟨body, rest, hbody, rfl⟩ | hopen
  · have hliteral := ScannedLiteral.closed (Expression.scanFrom_quoted hquote hbody [] rest) rfl
    rw [splitLiteral_closed hbody hslash]
    simpa [Text.Spot.left] using hliteral
  · rw [splitLiteral_unclosed hopen hslash]
    exact .unclosed (Expression.topLevel_unclosed hquote hopen)

/-! ### Spans and their texts -/

@[simp] theorem flatMap_wordSpan (word : List Char) (called : Bool) :
    (wordSpan word called).flatMap Span.text = word.reverse := by
  cases word with
  | nil => rfl
  | cons c word => simp [wordSpan]

theorem text_of_mem_wordSpan {called : Bool} {span : Span} (h : span ∈ wordSpan word called) :
    word ≠ [] ∧ span.text = word.reverse := by
  cases word with
  | nil => cases h
  | cons c word =>
    obtain rfl : span = _ := List.mem_singleton.1 h
    exact ⟨List.cons_ne_nil c word, rfl⟩

theorem text_ne_nil_of_mem_wordSpan {called : Bool} {span : Span}
    (h : span ∈ wordSpan word called) : span.text ≠ [] := by
  obtain ⟨hne, htext⟩ := text_of_mem_wordSpan h
  rw [htext]
  exact mt List.reverse_eq_nil_iff.1 hne

/-- The spans make up the word that was read and the line behind it. -/
theorem flatMap_highlightFrom (word : List Char) (line : Text) :
    (highlightFrom word line).flatMap Span.text = word.reverse ++ line := by
  fun_induction highlightFrom word line with
  | case1 word => simp
  | case2 word c rest hcomment => simp
  | case3 word c rest hcomment hquote split ih => simp [ih, split, splitLiteral_append]
  | case4 word c rest hcomment hquote hword ih => simp [ih]
  | case5 word c rest hcomment hquote hword ih => simp [ih]

/-- No span is empty. -/
theorem text_ne_nil_of_mem_highlightFrom (word : List Char) (line : Text) :
    ∀ span ∈ highlightFrom word line, span.text ≠ [] := by
  fun_induction highlightFrom word line with
  | case1 word => exact fun span => text_ne_nil_of_mem_wordSpan
  | case2 word c rest hcomment =>
    simp only [List.forall_mem_append, List.forall_mem_singleton]
    exact ⟨fun span => text_ne_nil_of_mem_wordSpan, List.cons_ne_nil _ _⟩
  | case3 word c rest hcomment hquote split ih =>
    simp only [List.forall_mem_append, List.forall_mem_cons]
    exact ⟨fun span => text_ne_nil_of_mem_wordSpan, List.cons_ne_nil _ _, ih⟩
  | case4 word c rest hcomment hquote hword ih => exact ih
  | case5 word c rest hcomment hquote hword ih =>
    simp only [List.forall_mem_append, List.forall_mem_cons]
    exact ⟨fun span => text_ne_nil_of_mem_wordSpan, List.cons_ne_nil _ _, ih⟩

/-! ### Places outside of literals and comments -/

/-- Between `s` and `rest` a line is outside of literals and comments: up to there it has closed
literals, and other characters that start no comment. -/
inductive Outside (rest : Text) : Text → Prop where
  | nil : Outside rest []
  | plain {c : Char} {s : Text} (hquote : isQuote c = false)
      (hcomment : ¬(c = '/' ∧ (s ++ rest).head? = some '/')) (hs : Outside rest s) :
      Outside rest (c :: s)
  | literal {quote : Char} {body s : Text} (hquote : isQuote quote = true)
      (hbody : LiteralBody quote body) (hs : Outside rest s) :
      Outside rest (quote :: (body ++ quote :: s))

theorem highlightFrom_quote (hquote : isQuote quote = true) (word : List Char) (t : Text) :
    highlightFrom word (quote :: t) =
      wordSpan word false ++ ⟨quote :: (splitLiteral quote t).1, .ofColor peach⟩ ::
        highlightFrom [] (splitLiteral quote t).2 := by
  have hslash : quote ≠ '/' := by
    rintro rfl
    exact absurd hquote (by decide)
  rw [highlightFrom]
  simp [hslash, hquote]

/-- What the highlighter has read when it gets to a place outside of literals and comments: the
spans up to there and a word that goes on. -/
theorem Outside.highlightFrom_append (h : Outside t s) (word : List Char) :
    ∃ spans word', highlightFrom word (s ++ t) = spans ++ highlightFrom word' t ∧
      spans.flatMap Span.text ++ word'.reverse = word.reverse ++ s := by
  induction h generalizing word with
  | nil => exact ⟨[], word, rfl, by simp⟩
  | @plain c s hquote hcomment _ ih =>
    have hstart : (c == '/' && (s ++ t).head? == some '/') = false := by
      simpa only [Bool.and_eq_false_iff, beq_eq_false_iff_ne, ← not_and_or] using hcomment
    rw [List.cons_append, highlightFrom, hstart, hquote]
    cases hword : Text.isWordChar c with
    | true =>
      obtain ⟨spans, word', hspans, htext⟩ := ih (c :: word)
      exact ⟨spans, word', hspans, by simpa using htext⟩
    | false =>
      obtain ⟨spans, word', hspans, htext⟩ := ih []
      refine ⟨wordSpan word (c == '(') ++
        ⟨[c], .ofColor (if isBracket c then blue else text)⟩ :: spans, word', ?_, ?_⟩
      · simp [hspans]
      · simpa using htext
  | @literal quote body s hquote hbody _ ih =>
    obtain ⟨spans, word', hspans, htext⟩ := ih []
    have hslash := Expression.ne_backslash_of_isQuote hquote
    refine ⟨wordSpan word false ++ ⟨quote :: (body ++ [quote]), .ofColor peach⟩ :: spans, word',
      ?_, by simpa using htext⟩
    rw [List.cons_append, List.append_assoc, List.cons_append, highlightFrom_quote hquote,
      splitLiteral_closed hbody hslash, hspans]
    simp

theorem head?_ne_of_mem_wordSpan {called : Bool} {span : Span}
    (hword : ∀ c ∈ word, isQuote c = false) (hspan : span ∈ wordSpan word called)
    (hquote : isQuote quote = true) : span.text.head? ≠ some quote := by
  intro hhead
  rw [(text_of_mem_wordSpan hspan).2] at hhead
  have hmem : quote ∈ word := List.mem_reverse.1 (List.mem_of_head? hhead)
  rw [hword quote hmem] at hquote
  cases hquote

/-- A span that is not the word read before stands behind it: it is the next span, or it comes
later. -/
theorem wordSpan_append_cases {called : Bool} {spans before after : List Span} {first span : Span}
    (hspan : span ∉ wordSpan word called)
    (h : wordSpan word called ++ first :: spans = before ++ span :: after) :
    (first = span ∧ before.flatMap Span.text = word.reverse) ∨
      ∃ others, spans = others ++ span :: after ∧
        before.flatMap Span.text = word.reverse ++ (first.text ++ others.flatMap Span.text) := by
  rcases List.append_eq_append_iff.1 h with ⟨others, rfl, htail⟩ | ⟨others, hword, htail⟩
  · cases others with
    | nil => exact .inl ⟨(List.cons.inj htail).1, by simp⟩
    | cons other others =>
      obtain ⟨rfl, hspans⟩ := List.cons.inj htail
      exact .inr ⟨others, hspans, by simp⟩
  · cases others with
    | nil =>
      rw [List.append_nil] at hword
      exact .inl ⟨(List.cons.inj htail).1.symm, by rw [← hword, flatMap_wordSpan]⟩
    | cons other others =>
      obtain ⟨rfl, -⟩ := List.cons.inj htail
      exact absurd (hword ▸ List.mem_append_right _ List.mem_cons_self) hspan

/-- A span that starts with a quote stands at a place outside of literals and comments. -/
theorem exists_outside_of_highlightFrom {line : Text} {before after : List Span} {span : Span}
    (hword : ∀ c ∈ word, isQuote c = false) (hquote : isQuote quote = true)
    (hhead : span.text.head? = some quote)
    (h : highlightFrom word line = before ++ span :: after) :
    ∃ s t, line = s ++ quote :: t ∧ before.flatMap Span.text = word.reverse ++ s ∧
      Outside (quote :: t) s := by
  have houter {word : List Char} {called : Bool} (hword : ∀ c ∈ word, isQuote c = false) :
      span ∉ wordSpan word called :=
    fun hmem => head?_ne_of_mem_wordSpan hword hmem hquote hhead
  fun_induction highlightFrom word line generalizing before with
  | case1 word => exact absurd (h ▸ List.mem_append_right _ List.mem_cons_self) (houter hword)
  | case2 word c rest hcomment =>
    obtain ⟨rfl, -⟩ : c = '/' ∧ rest.head? = some '/' := by simpa using hcomment
    rcases wordSpan_append_cases (houter hword) h with ⟨rfl, -⟩ | ⟨others, hothers, -⟩
    · obtain rfl : '/' = quote := Option.some.inj hhead
      cases hquote
    · simp at hothers
  | case3 word c rest hcomment hc split =>
    rename_i ih
    rcases wordSpan_append_cases (houter hword) h with ⟨rfl, hbefore⟩ | ⟨others, hothers, hbefore⟩
    · obtain rfl : c = quote := Option.some.inj hhead
      exact ⟨[], rest, rfl, by simpa using hbefore, .nil⟩
    · obtain ⟨s, t, hrest, htext, hs⟩ := ih (by simp) hothers
      have hslash := Expression.ne_backslash_of_isQuote hc
      -- Something follows the literal, so it is closed.
      rcases Expression.closed_or_unclosed c rest with ⟨body, behind, hbody, rfl⟩ | hopen
      · have hsplit : split = (body ++ [c], behind) := splitLiteral_closed hbody hslash behind
        rw [hsplit] at hrest hbefore
        obtain rfl : behind = s ++ quote :: t := hrest
        exact ⟨c :: (body ++ c :: s), t, by simp, by simp [hbefore, htext],
          .literal hc hbody hs⟩
      · have hsplit : split = (rest, []) := splitLiteral_unclosed hopen hslash
        rw [hsplit] at hrest
        simp at hrest
  | case4 word c rest hcomment hc hwordChar ih =>
    have hc : isQuote c = false := Bool.eq_false_iff.2 hc
    obtain ⟨s, t, rfl, htext, hs⟩ := ih (List.forall_mem_cons.2 ⟨hc, hword⟩) h
    exact ⟨c :: s, t, rfl, by simpa using htext, .plain hc (by simpa using hcomment) hs⟩
  | case5 word c rest hcomment hc hwordChar ih =>
    have hc : isQuote c = false := Bool.eq_false_iff.2 hc
    rcases wordSpan_append_cases (houter hword) h with ⟨rfl, -⟩ | ⟨others, hothers, hbefore⟩
    · obtain rfl : c = quote := Option.some.inj hhead
      rw [hc] at hquote
      cases hquote
    · obtain ⟨s, t, rfl, htext, hs⟩ := ih (by simp) hothers
      exact ⟨c :: s, t, rfl, by simp [hbefore, htext], .plain hc (by simpa using hcomment) hs⟩

/-! ### Lines -/

/-- A quote with which a span starts is outside of literals and comments. -/
theorem outside_of_highlight {before after : List Span} {span : Span}
    (hquote : isQuote quote = true)
    (h : highlight (before.flatMap Span.text ++ quote :: t) = before ++ span :: after) :
    Outside (quote :: t) (before.flatMap Span.text) := by
  have hne : span.text ≠ [] := by
    refine text_ne_nil_of_mem_highlightFrom [] (before.flatMap Span.text ++ quote :: t) span ?_
    rw [← highlight, h]
    exact List.mem_append_right _ List.mem_cons_self
  have htail : span.text ++ after.flatMap Span.text = quote :: t := by
    have hlossless := flatMap_highlightFrom [] (before.flatMap Span.text ++ quote :: t)
    rw [← highlight, h, List.flatMap_append, List.flatMap_cons] at hlossless
    exact List.append_cancel_left hlossless
  have hhead : span.text.head? = some quote := by
    rw [← List.head?_append_of_ne_nil _ hne, htail]
    rfl
  obtain ⟨s, t', hline, htext, hs⟩ := exists_outside_of_highlightFrom (by simp) hquote hhead h
  obtain rfl : before.flatMap Span.text = s := htext
  obtain rfl : t = t' := by simpa using hline
  exact hs

/-- Highlighting loses nothing. A slice that does not start and end between two characters is a
fault, as is a read behind the last character; the loop over positions comes to no fault, and is
through within as many rounds as the line has characters and one more. The spans make up the line,
and none is empty. A quote is outside of literals and comments exactly if a span starts with it;
then this span reaches up to the closing quote that a scan from the first quote on finds, or to the
end of the line if the scan finds none. -/
theorem highlight_faithful (line : Text) :
    (∀ start stop, (∃ part, Bytewise.slice line start stop = .ok part) ↔
      start ≤ stop ∧ IsBoundary line start ∧ IsBoundary line stop) ∧
    (∀ rounds, line.length < rounds →
      Bytewise.highlightWithin rounds line = .ok (highlight line)) ∧
    (highlight line).flatMap Span.text = line ∧
    (∀ span ∈ highlight line, span.text ≠ []) ∧
    ∀ s quote t, line = s ++ quote :: t → isQuote quote = true →
      (Outside (quote :: t) s ↔
        ∃ before span after, highlight line = before ++ span :: after ∧
          before.flatMap Span.text = s ∧ span.style = .ofColor peach ∧
          ScannedLiteral quote t span.text) := by
  refine ⟨fun start stop => Bytewise.exists_slice_iff,
    fun rounds hrounds => Bytewise.highlightWithin_eq hrounds, flatMap_highlightFrom [] line,
    text_ne_nil_of_mem_highlightFrom [] line, ?_⟩
  rintro s quote t rfl hquote
  constructor
  · intro houtside
    obtain ⟨spans, word, hspans, htext⟩ := houtside.highlightFrom_append []
    rw [highlightFrom_quote hquote, ← List.append_assoc] at hspans
    exact ⟨_, _, _, hspans, by simpa using htext, rfl, scannedLiteral_splitLiteral hquote t⟩
  · rintro ⟨before, span, after, hsplit, rfl, -, -⟩
    exact outside_of_highlight hquote hsplit

/-- The first literal of this line holds its own quote, a mark of a comment and another quote; the
second one ends in a backslash. -/
theorem highlight_faithful_escapes :
    let first := "é = ".toList
    let closed := "a\\\" // '\" + 'ö\\".toList
    let second := "é = \"a\\\" // '\" + ".toList
    let unclosed := "ö\\".toList
    let line := first ++ '\x22' :: closed
    line = second ++ '\x27' :: unclosed ∧
    Bytewise.highlightWithin (line.length + 1) line = .ok (highlight line) ∧
    (∃ before span after, highlight line = before ++ span :: after ∧
      before.flatMap Span.text = first ∧ span.style = .ofColor peach ∧
      ScannedLiteral '\x22' closed span.text) ∧
    ∃ before span after, highlight line = before ++ span :: after ∧
      before.flatMap Span.text = second ∧ span.style = .ofColor peach ∧
      ScannedLiteral '\x27' unclosed span.text := by
  intro first closed second unclosed line
  have hline : line = second ++ '\x27' :: unclosed := by decide
  have hplus : Outside ('\x27' :: unclosed) " + ".toList :=
    .plain rfl (by decide) (.plain rfl (by decide) (.plain rfl (by decide) .nil))
  have hliteral : Outside ('\x27' :: unclosed)
      ('\x22' :: ("a\\\" // '".toList ++ '\x22' :: " + ".toList)) :=
    .literal rfl (Expression.isLiteralBody_iff.1 (by decide)) hplus
  have hfirst : Outside ('\x22' :: closed) first := .plain rfl (by decide)
    (.plain rfl (by decide) (.plain rfl (by decide) (.plain rfl (by decide) .nil)))
  have hsecond : Outside ('\x27' :: unclosed) second := .plain rfl (by decide)
    (.plain rfl (by decide) (.plain rfl (by decide) (.plain rfl (by decide) hliteral)))
  obtain ⟨-, hrounds, -, -, hliterals⟩ := highlight_faithful line
  exact ⟨hline, hrounds _ (Nat.lt_succ_self _), (hliterals first _ closed rfl rfl).1 hfirst,
    (hliterals second _ unclosed hline rfl).1 hsecond⟩

end Stepwise.Pane
