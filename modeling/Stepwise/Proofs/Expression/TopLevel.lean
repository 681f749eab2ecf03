import Stepwise.Proofs.Expression.Atoms

/-!
# The top level of printed expressions

What a scan shows of a printed expression: of an atom only characters at which
nothing is split, and of a chain exactly the operators that stand between its atoms.
A sign is not among them, because no operand stands before it.

## Main definitions

* `Stepwise.Expression.Uncompared` — a text over which a scan passes without seeing a
  comparison.

## Main results

* `Stepwise.Expression.Shape.operators_append` — an atom shows no operator.
* `Stepwise.Expression.Product.operators_append`, `Grouping.operators_append` — the
  operators of a product are all multiplicative, and a scan comes out of a grouping
  as it comes out of an operand.
-/

namespace Stepwise.Expression

open Text (Brackets ScanState Spot scanFrom topLevel)

variable {c : Char} {s t : Text} {before : List Char} {previous : Option Char}

/-! ### Plain characters -/

theorem ofChar?_eq_none_of_not_mem_marks (h : c ∉ Text.marks) : Arithmetic.ofChar? c = none := by
  cases hop : Arithmetic.ofChar? c with
  | none => rfl
  | some op =>
    have hc := Arithmetic.ofChar?_eq_some_iff.mp hop
    exact absurd (by rw [hc]; cases op <;> decide) h

theorem isOperatorChar_eq_false_of_not_mem_marks (h : c ∉ Text.marks) :
    isOperatorChar c = false := by
  simp only [Text.marks, List.mem_cons, not_or] at h
  simp [isOperatorChar, h]

theorem scanFrom_cons_plain (hc : c ∉ Text.marks) :
    scanFrom .all (.code 0) before (c :: t) =
      ⟨before, c, t⟩ :: scanFrom .all (.code 0) (c :: before) t := by
  rw [Text.scanFrom_cons_of_shows rfl, Text.step_code_of_not_mem_marks hc]

theorem operators_cons_plain (hc : IsPlain c) :
    operators previous (scanFrom .all (.code 0) before (c :: t)) =
      operators (some c) (scanFrom .all (.code 0) (c :: before) t) := by
  rw [scanFrom_cons_plain hc.1]
  simp [operators, hc.2, ofChar?_eq_none_of_not_mem_marks hc.1]

/-- Behind plain characters the last of them is the last character seen. -/
theorem operators_plain {body : Text} (hne : body ≠ []) (hplain : ∀ c ∈ body, IsPlain c) :
    operators previous (scanFrom .all (.code 0) before (body ++ t)) =
      operators (some (body.getLast hne))
        (scanFrom .all (.code 0) (body.reverse ++ before) t) := by
  -- Each character is the last one seen for the rest, so the induction carries `previous`.
  induction body generalizing previous before with
  | nil => exact absurd rfl hne
  | cons c body ih =>
    rw [List.cons_append, operators_cons_plain (hplain c List.mem_cons_self)]
    cases body with
    | nil => rfl
    | cons d body =>
      rw [ih (List.cons_ne_nil d body) fun e he => hplain e (List.mem_cons_of_mem c he)]
      simp

/-! ### Atoms -/

theorem scanFrom_signed (sign : Sign) :
    scanFrom .all (.code 0) before (sign.symbol :: t) =
      ⟨before, sign.symbol, t⟩ :: scanFrom .all (.code 0) (sign.symbol :: before) t := by
  rw [Text.scanFrom_cons_of_shows rfl]
  cases sign <;> rfl

/-- Of a literal only its two quotes are shown. -/
theorem scanFrom_quoted {quote : Char} {body : Text} (hquote : Text.isQuote quote = true)
    (hbody : LiteralBody quote body) (before : List Char) (t : Text) :
    scanFrom .all (.code 0) before (quote :: (body ++ quote :: t)) =
      ⟨before, quote, body ++ quote :: t⟩ ::
        ⟨body.reverse ++ quote :: before, quote, t⟩ ::
          scanFrom .all (.code 0) (quote :: (body.reverse ++ quote :: before)) t := by
  have hslash := ne_backslash_of_isQuote hquote
  have hopen : (ScanState.code 0).step .all quote = .literal 0 quote false := by
    simp [ScanState.step, hquote]
  have hclose : (ScanState.literal 0 quote false).step .all quote = .code 0 := by
    simp [ScanState.step, hslash]
  have hshows : (ScanState.literal 0 quote false).shows .all quote = true := by
    simp [ScanState.shows]
  rw [Text.scanFrom_cons_of_shows rfl, hopen, hbody.scanFrom_append hslash,
    Text.scanFrom_cons_of_shows hshows, hclose]

/-- An atom shows no operator when what stands before it is none or an operator, and
a scan comes out of it with the end of an operand behind it. -/
theorem Shape.operators_append (h : Shape s) (hprevious : previous.all isOperatorChar = true)
    (before : List Char) (t : Text) :
    ∃ last, isOperatorChar last = false ∧
      operators previous (scanFrom .all (.code 0) before (s ++ t)) =
        operators (some last) (scanFrom .all (.code 0) (s.reverse ++ before) t) := by
  cases h with
  | plain hne hplain =>
    exact ⟨s.getLast hne,
      isOperatorChar_eq_false_of_not_mem_marks (hplain _ (List.getLast_mem hne)).1,
      operators_plain hne hplain⟩
  | @signed body sign hne hplain =>
    refine ⟨body.getLast hne,
      isOperatorChar_eq_false_of_not_mem_marks (hplain _ (List.getLast_mem hne)).1, ?_⟩
    -- The sign has no operand before it, so it is no operator with two operands.
    have hsign : operators previous (scanFrom .all (.code 0) before (sign.symbol :: (body ++ t))) =
        operators (some sign.symbol)
          (scanFrom .all (.code 0) (sign.symbol :: before) (body ++ t)) := by
      rw [scanFrom_signed]
      cases sign <;>
        simp [operators, Sign.symbol, Text.isBlank, Arithmetic.ofChar?, isBinary,
          Arithmetic.isAdditive, hprevious]
    rw [List.cons_append, hsign, operators_plain hne hplain]
    simp
  | @quoted quote body hquote hbody =>
    have hnone : Arithmetic.ofChar? quote = none := by
      rcases Text.isQuote_iff.mp hquote with rfl | rfl | rfl <;> rfl
    have hplain : isOperatorChar quote = false := by
      rcases Text.isQuote_iff.mp hquote with rfl | rfl | rfl <;> rfl
    refine ⟨quote, hplain, ?_⟩
    have hscan := scanFrom_quoted hquote (isLiteralBody_iff.mp hbody) before t
    simp only [List.cons_append, List.append_assoc, List.nil_append, List.reverse_cons,
      List.reverse_append, List.reverse_nil]
    rw [hscan]
    simp [operators, Text.isBlank_eq_false_of_isQuote hquote, hnone]

/-! ### Chains -/

/-- The place of an operator in a text of which `before` has been read. -/
def operatorSpot (op : Arithmetic) (before : List Char) (t : Text) : Spot :=
  ⟨' ' :: before, op.symbol, ' ' :: t⟩

theorem scanFrom_spaced (op : Arithmetic) :
    scanFrom .all (.code 0) before (spaced [op.symbol] ++ t) =
      ⟨before, ' ', op.symbol :: ' ' :: t⟩ :: operatorSpot op before t ::
        ⟨op.symbol :: ' ' :: before, ' ', t⟩ ::
          scanFrom .all (.code 0) ((spaced [op.symbol]).reverse ++ before) t := by
  cases op <;> rfl

/-- An operator with spaces around it is found behind an operand. -/
theorem operators_spaced {last : Char} (hlast : isOperatorChar last = false) (op : Arithmetic)
    (before : List Char) (t : Text) :
    operators (some last) (scanFrom .all (.code 0) before (spaced [op.symbol] ++ t)) =
      (op, operatorSpot op before t) ::
        operators (some op.symbol)
          (scanFrom .all (.code 0) ((spaced [op.symbol]).reverse ++ before) t) := by
  have hspace : Text.isBlank ' ' = true := rfl
  have hblank : Text.isBlank op.symbol = false := by cases op <;> rfl
  have hop : Arithmetic.ofChar? op.symbol = some op := Arithmetic.ofChar?_eq_some_iff.mpr rfl
  have hbinary : isBinary op (some last) (operatorSpot op before t) = true := by
    cases op <;> simp [isBinary, operatorSpot, Arithmetic.symbol, hlast]
  rw [scanFrom_spaced]
  simp only [operators, hspace, if_true]
  rw [show (operatorSpot op before t).char = op.symbol from rfl, hop]
  simp [hblank, hbinary]

theorem all_isOperatorChar_symbol (op : Arithmetic) :
    (some op.symbol).all isOperatorChar = true := by
  cases op <;> rfl

/-- The operators of a product are multiplicative. -/
theorem Product.operators_append (product : Product)
    (hprevious : previous.all isOperatorChar = true) (before : List Char) (t : Text) :
    ∃ found last, (∀ f ∈ found, f.1.isAdditive = false) ∧ isOperatorChar last = false ∧
      operators previous (scanFrom .all (.code 0) before (product.text ++ t)) =
        found ++ operators (some last)
          (scanFrom .all (.code 0) (product.text.reverse ++ before) t) := by
  induction product generalizing t with
  | atom first =>
    obtain ⟨last, hlast, hscan⟩ := first.shape.operators_append hprevious before t
    exact ⟨[], last, by simp, hlast, hscan⟩
  | join left op tight right ih =>
    obtain ⟨found, last, hfound, hlast, hleft⟩ := ih (spaced [op.symbol] ++ right.text ++ t)
    obtain ⟨last', hlast', hright⟩ := right.shape.operators_append (all_isOperatorChar_symbol op)
      ((spaced [op.symbol]).reverse ++ (left.text.reverse ++ before)) t
    refine ⟨found ++ [(op, operatorSpot op (left.text.reverse ++ before) (right.text ++ t))],
      last', ?_, hlast', ?_⟩
    · intro f hf
      rcases List.mem_append.mp hf with hf | hf
      · exact hfound f hf
      · rw [List.mem_singleton.mp hf]
        exact tight
    · rw [List.append_assoc, operators_spaced hlast, hright] at hleft
      simpa [text] using hleft

/-- A scan comes out of a grouping with the end of an operand behind it. -/
theorem Grouping.operators_append (grouping : Grouping)
    (hprevious : previous.all isOperatorChar = true) (before : List Char) (t : Text) :
    ∃ found last, isOperatorChar last = false ∧
      operators previous (scanFrom .all (.code 0) before (grouping.text ++ t)) =
        found ++ operators (some last)
          (scanFrom .all (.code 0) (grouping.text.reverse ++ before) t) := by
  induction grouping generalizing t with
  | product first =>
    obtain ⟨found, last, -, hlast, hscan⟩ := first.operators_append hprevious before t
    exact ⟨found, last, hlast, hscan⟩
  | join left op loose right ih =>
    obtain ⟨found, last, hlast, hleft⟩ := ih (spaced [op.symbol] ++ right.text ++ t)
    obtain ⟨found', last', -, hlast', hright⟩ :=
      right.operators_append (all_isOperatorChar_symbol op)
        ((spaced [op.symbol]).reverse ++ (left.text.reverse ++ before)) t
    refine ⟨found ++
      (op, operatorSpot op (left.text.reverse ++ before) (right.text ++ t)) :: found',
      last', hlast', ?_⟩
    rw [List.append_assoc, operators_spaced hlast, hright] at hleft
    simpa [text] using hleft

/-! ### Comparisons -/

/-- The characters with which comparisons start. -/
def comparisonStarts : List Char :=
  ['=', '!', '<', '>']

/-- A scan of code passes over the text and shows no character with which a
comparison starts. -/
structure Uncompared (t : Text) : Prop where
  /-- The text closes every literal and every group that it opens. -/
  run_eq : (ScanState.code 0).run .all t = .code 0
  /-- Nothing that is shown starts a comparison. -/
  char_not_mem : ∀ before, ∀ spot ∈ scanFrom .all (.code 0) before t, spot.char ∉ comparisonStarts

namespace Uncompared

theorem append (hs : Uncompared s) (ht : Uncompared t) : Uncompared (s ++ t) where
  run_eq := by rw [ScanState.run_append, hs.run_eq, ht.run_eq]
  char_not_mem := by
    intro before spot hspot
    rw [Text.scanFrom_append, hs.run_eq, List.mem_append, List.mem_map] at hspot
    rcases hspot with ⟨spot', hspot', rfl⟩ | hspot
    · exact hs.char_not_mem before spot' hspot'
    · exact ht.char_not_mem _ spot hspot

theorem nil : Uncompared [] :=
  ⟨rfl, fun _ _ h => absurd h List.not_mem_nil⟩

/-- A character outside quotes, brackets and comparisons may come first. -/
theorem cons (hstep : (ScanState.code 0).step .all c = .code 0) (hc : c ∉ comparisonStarts)
    (ht : Uncompared t) : Uncompared (c :: t) where
  run_eq := by rw [ScanState.run_cons, hstep, ht.run_eq]
  char_not_mem := by
    intro before spot hspot
    rw [Text.scanFrom_cons_of_shows rfl, hstep] at hspot
    rcases List.mem_cons.mp hspot with rfl | hspot
    · exact hc
    · exact ht.char_not_mem _ spot hspot

theorem of_forall_plain (h : ∀ c ∈ t, c ∉ Text.marks) : Uncompared t := by
  induction t with
  | nil => exact nil
  | cons c t ih =>
    have hc := h c List.mem_cons_self
    have ht := ih fun d hd => h d (List.mem_cons_of_mem c hd)
    refine cons (Text.step_code_of_not_mem_marks hc) ?_ ht
    simp only [Text.marks, List.mem_cons, not_or] at hc
    simp [comparisonStarts, hc]

theorem of_operator (op : Arithmetic) : Uncompared (spaced [op.symbol]) := by
  refine cons rfl (by decide) (cons ?_ ?_ (cons rfl (by decide) nil))
  · cases op <;> rfl
  · cases op <;> decide

end Uncompared

theorem Shape.uncompared (h : Shape t) : Uncompared t := by
  cases h with
  | plain hne hplain => exact .of_forall_plain fun c hc => (hplain c hc).1
  | signed sign hne hplain =>
    refine .cons ?_ ?_ (.of_forall_plain fun c hc => (hplain c hc).1)
    · cases sign <;> rfl
    · cases sign <;> decide
  | @quoted quote body hquote hbody =>
    have hbody := isLiteralBody_iff.mp hbody
    have hscan := fun before => scanFrom_quoted hquote hbody before []
    constructor
    · have hopen : (ScanState.code 0).step .all quote = .literal 0 quote false := by
        simp [ScanState.step, hquote]
      rw [ScanState.run_cons, ScanState.run_append, hopen, hbody.run]
      simp [ScanState.step, ne_backslash_of_isQuote hquote]
    · intro before spot hspot
      rw [hscan] at hspot
      have hchar : spot.char = quote := by
        simp only [scanFrom, List.mem_cons, List.not_mem_nil, or_false] at hspot
        rcases hspot with rfl | rfl <;> rfl
      rw [hchar]
      rcases Text.isQuote_iff.mp hquote with rfl | rfl | rfl <;> decide

theorem Product.uncompared (product : Product) : Uncompared product.text := by
  induction product with
  | atom first => exact first.shape.uncompared
  | join left op tight right ih =>
    exact ih.append ((Uncompared.of_operator op).append right.shape.uncompared)

theorem Grouping.uncompared (grouping : Grouping) : Uncompared grouping.text := by
  induction grouping with
  | product first => exact first.uncompared
  | join left op loose right ih =>
    exact ih.append ((Uncompared.of_operator op).append right.uncompared)

theorem Product.tight (product : Product) : Text.Tight product.text := by
  induction product with
  | atom first => exact first.shape.tight
  | join left op tight right ih => exact ih.append right.shape.tight _

theorem Grouping.tight (grouping : Grouping) : Text.Tight grouping.text := by
  induction grouping with
  | product first => exact first.tight
  | join left op loose right ih => exact ih.append right.tight _

end Stepwise.Expression
