import Stepwise.Proofs.Expression.Literal

/-!
# Sealed pieces

A string literal and a bracket group are sealed: a scan shows the two characters that
delimit them and nothing of what stands between these. So it does not matter to a scan
which sealed piece stands in a text.

## Main definitions

* `Stepwise.Expression.Balanced` — texts whose literals are closed and whose brackets are
  nested.
* `Stepwise.Expression.Sealed` — string literals and bracket groups.
* `Stepwise.Expression.Hidden` — a text over which a scan passes without showing anything.

## Main results

* `Stepwise.Expression.Balanced.hidden` — a balanced text inside a group is hidden.
* `Stepwise.Expression.Sealed.scanned` — a scan shows two characters of a sealed piece.
-/

namespace Stepwise.Expression

open Text (Brackets ScanState Spot isQuote scanFrom)

/-! ### Pieces -/

/-- The characters that delimit literals and groups. -/
def delimiters : List Char :=
  ['\x22', '\x27', '\x60', '(', ')', '[', ']', '{', '}']

/-- A text in which every literal is closed and brackets are nested, any closing bracket
matching any opening one. -/
inductive Balanced : Text → Prop where
  | nil : Balanced []
  | plain {c : Char} {rest : Text} (hc : c ∉ delimiters) (hrest : Balanced rest) :
      Balanced (c :: rest)
  | literal {quote : Char} {body rest : Text} (hquote : isQuote quote = true)
      (hbody : LiteralBody quote body) (hrest : Balanced rest) :
      Balanced (quote :: (body ++ [quote]) ++ rest)
  | group {opening closing : Char} {body rest : Text}
      (hopening : Brackets.all.opens opening = true) (hclosing : Brackets.all.closes closing = true)
      (hbody : Balanced body) (hrest : Balanced rest) :
      Balanced (opening :: (body ++ [closing]) ++ rest)

/-- A string literal with its quotes, or a bracket group with its brackets. -/
inductive Sealed : Text → Prop where
  | literal {quote : Char} {body : Text} (hquote : isQuote quote = true)
      (hbody : LiteralBody quote body) : Sealed (quote :: (body ++ [quote]))
  | group {opening closing : Char} {body : Text} (hopening : Brackets.all.opens opening = true)
      (hclosing : Brackets.all.closes closing = true) (hbody : Balanced body) :
      Sealed (opening :: (body ++ [closing]))

/-! ### Delimiters -/

variable {c opening closing quote : Char} {s t body piece : Text} {state inner : ScanState}
  {depth : Nat}

theorem mem_delimiters_of_isQuote (h : isQuote c = true) : c ∈ delimiters := by
  rcases Text.isQuote_iff.1 h with rfl | rfl | rfl <;> decide

theorem opens_iff : Brackets.all.opens c = true ↔ c = '(' ∨ c = '[' ∨ c = '{' := by
  simp [Brackets.all, or_assoc]

theorem closes_iff : Brackets.all.closes c = true ↔ c = ')' ∨ c = ']' ∨ c = '}' := by
  simp [Brackets.all, or_assoc]

theorem mem_delimiters_of_opens (h : Brackets.all.opens c = true) : c ∈ delimiters := by
  rcases opens_iff.1 h with rfl | rfl | rfl <;> decide

theorem mem_delimiters_of_closes (h : Brackets.all.closes c = true) : c ∈ delimiters := by
  rcases closes_iff.1 h with rfl | rfl | rfl <;> decide

theorem step_of_not_mem_delimiters (hc : c ∉ delimiters) :
    (ScanState.code depth).step .all c = .code depth := by
  have hquote : isQuote c = false := Bool.eq_false_iff.2 (mt mem_delimiters_of_isQuote hc)
  have hopens : Brackets.all.opens c = false := Bool.eq_false_iff.2 (mt mem_delimiters_of_opens hc)
  have hcloses : Brackets.all.closes c = false :=
    Bool.eq_false_iff.2 (mt mem_delimiters_of_closes hc)
  simp [ScanState.step, hquote, hopens, hcloses]

theorem step_quote (h : isQuote quote = true) :
    (ScanState.code depth).step .all quote = .literal depth quote false := by
  simp [ScanState.step, h]

theorem step_literal_quote (h : isQuote quote = true) :
    (ScanState.literal depth quote false).step .all quote = .code depth := by
  simp [ScanState.step, ne_backslash_of_isQuote h]

theorem step_opening (h : Brackets.all.opens opening = true) :
    (ScanState.code depth).step .all opening = .code (depth + 1) := by
  rcases opens_iff.1 h with rfl | rfl | rfl <;> rfl

theorem step_closing (h : Brackets.all.closes closing = true) :
    (ScanState.code (depth + 1)).step .all closing = .code depth := by
  rcases closes_iff.1 h with rfl | rfl | rfl <;> rfl

theorem shows_code_succ (h : Brackets.all.closes c = false) :
    (ScanState.code (depth + 1)).shows .all c = false := by
  simp [ScanState.shows, h]

/-! ### Hidden texts -/

/-- A scan passes over the text, shows nothing of it and is then where it was. -/
structure Hidden (state : ScanState) (text : Text) : Prop where
  /-- The scan is where it was. -/
  run_eq : state.run .all text = state
  /-- Nothing is shown. -/
  scan_eq : ∀ before, scanFrom .all state before text = []

namespace Hidden

theorem nil : Hidden state [] :=
  ⟨rfl, fun _ => rfl⟩

theorem cons (hstep : state.step .all c = state) (hshows : state.shows .all c = false)
    (ht : Hidden state t) : Hidden state (c :: t) where
  run_eq := by rw [ScanState.run_cons, hstep, ht.run_eq]
  scan_eq := by
    intro before
    rw [Text.scanFrom_cons_of_not_shows hshows, hstep, ht.scan_eq]

theorem append (hs : Hidden state s) (ht : Hidden state t) : Hidden state (s ++ t) where
  run_eq := by rw [ScanState.run_append, hs.run_eq, ht.run_eq]
  scan_eq := by
    intro before
    rw [Text.scanFrom_append, hs.scan_eq, hs.run_eq, ht.scan_eq]
    rfl

theorem scanFrom_append (hs : Hidden state s) (before : List Char) (t : Text) :
    scanFrom .all state before (s ++ t) = scanFrom .all state (s.reverse ++ before) t := by
  rw [Text.scanFrom_append, hs.scan_eq, hs.run_eq]
  rfl

/-- Two hidden characters hide with what stands between them, if they lead into the state
in which that is hidden and out of it again. -/
theorem enclose (hopening : state.step .all opening = inner)
    (hclosing : inner.step .all closing = state) (hshows : state.shows .all opening = false)
    (hshows' : inner.shows .all closing = false) (hbody : Hidden inner body) :
    Hidden state (opening :: (body ++ [closing])) where
  run_eq := by
    rw [ScanState.run_cons, hopening, ScanState.run_append, hbody.run_eq, ScanState.run_cons,
      hclosing, ScanState.run_nil]
  scan_eq := by
    intro before
    rw [Text.scanFrom_cons_of_not_shows hshows, hopening, hbody.scanFrom_append,
      Text.scanFrom_cons_of_not_shows hshows']
    rfl

end Hidden

/-- The body of a literal is hidden in it. -/
theorem LiteralBody.hidden (h : LiteralBody quote body) (hquote : isQuote quote = true) :
    Hidden (.literal depth quote false) body where
  run_eq := h.run
  scan_eq := by
    intro before
    rw [← List.append_nil body, h.scanFrom_append (ne_backslash_of_isQuote hquote)]
    rfl

/-- A balanced text is hidden in a group, however deep. -/
theorem Balanced.hidden (h : Balanced body) : Hidden (.code (depth + 1)) body := by
  -- A group inside the text is one deeper, so the induction is for all depths at once.
  induction h generalizing depth with
  | nil => exact .nil
  | plain hc hrest ih =>
    have hcloses := Bool.eq_false_iff.2 (mt mem_delimiters_of_closes hc)
    exact Hidden.cons (step_of_not_mem_delimiters hc) (shows_code_succ hcloses) ih
  | literal hquote hbody hrest ih =>
    refine Hidden.append (.enclose (step_quote hquote) (step_literal_quote hquote) ?_ ?_
      (hbody.hidden hquote)) ih
    · refine shows_code_succ ?_
      rcases Text.isQuote_iff.1 hquote with rfl | rfl | rfl <;> rfl
    · simp [ScanState.shows]
  | group hopening hclosing hbody hrest ihbody ihrest =>
    refine Hidden.append (.enclose (step_opening hopening) (step_closing hclosing) ?_ ?_
      ihbody) ihrest
    · refine shows_code_succ ?_
      rcases opens_iff.1 hopening with rfl | rfl | rfl <;> rfl
    · simp [ScanState.shows]

/-! ### Sealed pieces -/

/-- What a scan makes of a sealed piece: it shows the first and the last character, which
are delimiters, and is then where it was. -/
structure Scanned (piece : Text) : Prop where
  /-- The scan is where it was. -/
  run_eq : (ScanState.code 0).run .all piece = .code 0
  /-- Two delimiters are shown. -/
  scan_eq : ∃ first body last, first ∈ delimiters ∧ last ∈ delimiters ∧
    piece = first :: (body ++ [last]) ∧ ∀ before t,
      scanFrom .all (.code 0) before (piece ++ t) =
        ⟨before, first, body ++ last :: t⟩ :: ⟨body.reverse ++ first :: before, last, t⟩ ::
          scanFrom .all (.code 0) (piece.reverse ++ before) t

/-- Two delimiters that lead into a state and out of it again enclose what is hidden in that
state. -/
theorem scanned_of_hidden (hfirst : opening ∈ delimiters) (hlast : closing ∈ delimiters)
    (hopening : (ScanState.code 0).step .all opening = inner)
    (hclosing : inner.step .all closing = .code 0) (hshows : inner.shows .all closing = true)
    (hbody : Hidden inner body) : Scanned (opening :: (body ++ [closing])) where
  run_eq := by
    rw [ScanState.run_cons, hopening, ScanState.run_append, hbody.run_eq, ScanState.run_cons,
      hclosing, ScanState.run_nil]
  scan_eq := by
    refine ⟨opening, body, closing, hfirst, hlast, rfl, ?_⟩
    intro before t
    have hparts : opening :: (body ++ [closing]) ++ t = opening :: (body ++ closing :: t) := by
      simp
    rw [hparts, Text.scanFrom_cons_of_shows rfl, hopening, hbody.scanFrom_append,
      Text.scanFrom_cons_of_shows hshows, hclosing]
    simp

/-- A scan shows two characters of a sealed piece. -/
theorem Sealed.scanned (h : Sealed piece) : Scanned piece := by
  cases h with
  | literal hquote hbody =>
    have hmem := mem_delimiters_of_isQuote hquote
    refine scanned_of_hidden hmem hmem (step_quote hquote) (step_literal_quote hquote) ?_
      (hbody.hidden hquote)
    simp [ScanState.shows]
  | group hopening hclosing hbody =>
    refine scanned_of_hidden (mem_delimiters_of_opens hopening)
      (mem_delimiters_of_closes hclosing) (step_opening hopening) (step_closing hclosing) ?_
      hbody.hidden
    simp [ScanState.shows, hclosing]

end Stepwise.Expression
