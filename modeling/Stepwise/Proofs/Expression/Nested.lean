import Stepwise.Proofs.Expression.Parentheses
import Stepwise.Proofs.Expression.Replacement
import Stepwise.Proofs.Text.Statement

/-!
# Nested texts

Parts of a line are found by two scans that count differently: parentheses are matched without
a look at other brackets, and lists are split with a look at all of them. On a text whose
literals are closed and whose brackets are nested, each closing bracket of the kind of the
innermost open one, both scans agree. Such a text can stand in parentheses or between the
separators of a list, and it is found there as it is.

## Main definitions

* `Stepwise.Expression.Nested` — texts whose literals are closed and whose brackets are nested.
* `Stepwise.Expression.Closed` — nested texts without a separator at their top level.

## Main results

* `Stepwise.Expression.Nested.parenGroup_eq` — a nested text is the contents of the
  parentheses around it.
* `Stepwise.Expression.splitTopLevel_join` — a list of closed texts is split into these.
-/

namespace Stepwise.Expression

open Text (Brackets ScanState Spot isQuote parenGroup scanFrom splitFrom splitTopLevel topLevel)

variable {c opening closing separator : Char} {s t inner : Text} {depth : Nat}

/-! ### Nested brackets -/

/-- The three kinds of brackets, each with the character that opens and the one that closes. -/
def bracketPairs : List (Char × Char) :=
  [('(', ')'), ('[', ']'), ('{', '}')]

/-- A text in which every literal is closed and every bracket is closed by one of its kind. -/
inductive Nested : Text → Prop where
  | nil : Nested []
  | plain {c : Char} {rest : Text} (hc : c ∉ delimiters) (hrest : Nested rest) : Nested (c :: rest)
  | literal {quote : Char} {body rest : Text} (hquote : isQuote quote = true)
      (hbody : LiteralBody quote body) (hrest : Nested rest) :
      Nested (quote :: (body ++ [quote]) ++ rest)
  | group {opening closing : Char} {body rest : Text}
      (hpair : (opening, closing) ∈ bracketPairs) (hbody : Nested body) (hrest : Nested rest) :
      Nested (opening :: (body ++ [closing]) ++ rest)

theorem mem_bracketPairs_iff :
    (opening, closing) ∈ bracketPairs ↔
      opening = '(' ∧ closing = ')' ∨ opening = '[' ∧ closing = ']' ∨
        opening = '{' ∧ closing = '}' := by
  simp [bracketPairs]

theorem Nested.of_forall (h : ∀ c ∈ t, c ∉ delimiters) : Nested t := by
  induction t with
  | nil => exact .nil
  | cons c t ih =>
    exact .plain (h c List.mem_cons_self) (ih fun d hd => h d (List.mem_cons_of_mem c hd))

theorem Nested.of_all (h : (t.all fun c => !delimiters.contains c) = true) : Nested t :=
  .of_forall (by simpa using h)

theorem Nested.append (hs : Nested s) (ht : Nested t) : Nested (s ++ t) := by
  induction hs with
  | nil => exact ht
  | plain hc _ ih => exact .plain hc ih
  | literal hquote hbody _ ih =>
    rw [List.append_assoc]
    exact .literal hquote hbody ih
  | group hpair hbody _ _ ih =>
    rw [List.append_assoc]
    exact .group hpair hbody ih

/-- Where each bracket is closed by one of its kind, each bracket is closed. -/
theorem Nested.balanced (h : Nested t) : Balanced t := by
  induction h with
  | nil => exact .nil
  | plain hc _ ih => exact .plain hc ih
  | literal hquote hbody _ ih => exact .literal hquote hbody ih
  | group hpair _ _ ihbody ihrest =>
    rcases mem_bracketPairs_iff.1 hpair with ⟨rfl, rfl⟩ | ⟨rfl, rfl⟩ | ⟨rfl, rfl⟩
    all_goals exact .group rfl rfl ihbody ihrest

/-- A scan is behind a balanced text where it was before it. -/
theorem Balanced.run_eq (h : Balanced t) : (ScanState.code depth).run .all t = .code depth := by
  induction h with
  | nil => rfl
  | plain hc _ ih => rw [ScanState.run_cons, step_of_not_mem_delimiters hc, ih]
  | literal hquote hbody _ ih =>
    rw [ScanState.run_append, ScanState.run_cons, step_quote hquote, ScanState.run_append,
      hbody.run, ScanState.run_cons, step_literal_quote hquote, ScanState.run_nil, ih]
  | group hopening hclosing hbody _ _ ih =>
    rw [ScanState.run_append, ScanState.run_cons, step_opening hopening, ScanState.run_append,
      hbody.hidden.run_eq, ScanState.run_cons, step_closing hclosing, ScanState.run_nil, ih]

/-! ### Parentheses -/

/-- Where all brackets are nested, the parentheses among them are. -/
theorem Nested.roundNested (h : Nested t) : RoundNested t := by
  induction h with
  | nil => exact .nil
  | @plain c rest hc _ ih =>
    have hquote : isQuote c = false := Bool.eq_false_iff.2 (mt mem_delimiters_of_isQuote hc)
    exact .plain hquote (fun heq => hc (heq ▸ by decide)) (fun heq => hc (heq ▸ by decide)) ih
  | literal hquote hbody _ ih => exact .literal hquote hbody ih
  | @group opening closing body rest hpair _ _ ihbody ihrest =>
    rcases mem_bracketPairs_iff.1 hpair with ⟨rfl, rfl⟩ | ⟨rfl, rfl⟩ | ⟨rfl, rfl⟩
    · exact .group ihbody ihrest
    all_goals
      rw [List.cons_append, List.append_assoc]
      refine .plain rfl (by decide) (by decide) (ihbody.append ?_)
      exact .plain rfl (by decide) (by decide) ihrest

/-- A nested text is the contents of the parentheses around it. -/
theorem Nested.parenGroup_eq (h : Nested inner) (rest : Text) :
    parenGroup ('(' :: (inner ++ ')' :: rest)) = some inner :=
  parenGroup_eq_some_iff.2 ⟨h.roundNested, rest, rfl⟩

/-! ### Lists -/

/-- A nested text that shows no separator. -/
structure Closed (separator : Char) (text : Text) : Prop where
  /-- Literals are closed and brackets are nested. -/
  nested : Nested text
  /-- No separator is at the top level. -/
  unsplit : ∀ spot ∈ topLevel text, spot.char ≠ separator

namespace Closed

theorem of_forall (h : ∀ c ∈ t, c ∉ delimiters ∧ c ≠ separator) : Closed separator t where
  nested := .of_forall fun c hc => (h c hc).1
  unsplit := fun _ hspot => (h _ (Text.char_mem_of_mem_scanFrom hspot)).2

theorem of_all (h : (t.all fun c => !delimiters.contains c && c != separator) = true) :
    Closed separator t :=
  of_forall (by simpa using h)

theorem append (hs : Closed separator s) (ht : Closed separator t) :
    Closed separator (s ++ t) where
  nested := hs.nested.append ht.nested
  unsplit := by
    intro spot hspot
    rw [Text.topLevel_append hs.nested.balanced.run_eq, List.mem_append, List.mem_map,
      List.mem_map] at hspot
    rcases hspot with ⟨spot, hspot, rfl⟩ | ⟨spot, hspot, rfl⟩
    · exact hs.unsplit spot hspot
    · exact ht.unsplit spot hspot

theorem splitTopLevel_eq (h : Closed separator s) : splitTopLevel separator s = [s] :=
  splitTopLevel_of_forall h.unsplit

theorem splitTopLevel_append (h : Closed separator s) (hseparator : separator ∉ delimiters)
    (t : Text) :
    splitTopLevel separator (s ++ separator :: t) = s :: splitTopLevel separator t := by
  have hrest : splitFrom separator (ScanState.start.run .all s) (separator :: t) =
      [] :: splitFrom separator .start t := by
    rw [ScanState.start, h.nested.balanced.run_eq, splitFrom, step_of_not_mem_delimiters hseparator]
    simp
  have hsplit := splitFrom_of_forall [] h.unsplit hrest
  rwa [List.append_nil] at hsplit

end Closed

/-- The texts one after the other with `gap` behind each separator. -/
theorem splitTopLevel_join {gap first : Text} {others : List Text}
    (hseparator : separator ∉ delimiters) (hgap : Closed separator gap)
    (hfirst : Closed separator first) (hothers : ∀ text ∈ others, Closed separator text) :
    splitTopLevel separator (Text.join (separator :: gap) (first :: others)) =
      first :: others.map (gap ++ ·) := by
  induction others generalizing first with
  | nil => exact hfirst.splitTopLevel_eq
  | cons second others ih =>
    have hsecond := hgap.append (hothers second List.mem_cons_self)
    have hrest := ih hsecond fun text htext => hothers text (List.mem_cons_of_mem _ htext)
    have hjoin : Text.join (separator :: gap) (first :: second :: others) =
        first ++ separator :: (gap ++ Text.join (separator :: gap) (second :: others)) := by
      simp [Text.join]
    have hmove : gap ++ Text.join (separator :: gap) (second :: others) =
        Text.join (separator :: gap) ((gap ++ second) :: others) := by
      cases others <;> simp [Text.join]
    rw [hjoin, hfirst.splitTopLevel_append hseparator, hmove, hrest]
    rfl

/-- Closed texts in a list are nested together. -/
theorem nested_join {gap : Text} {texts : List Text} (hseparator : separator ∉ delimiters)
    (hgap : Closed separator gap) (h : ∀ text ∈ texts, Closed separator text) :
    Nested (Text.join (separator :: gap) texts) := by
  induction texts with
  | nil => exact .nil
  | cons first others ih =>
    have hfirst := (h first List.mem_cons_self).nested
    have hothers := ih fun text htext => h text (List.mem_cons_of_mem _ htext)
    cases others with
    | nil => exact hfirst
    | cons second others => exact (hfirst.append (.plain hseparator hgap.nested)).append hothers

end Stepwise.Expression
