import Mathlib.Data.List.TakeWhile
import Stepwise.Proofs.Expression.Grammar
import Stepwise.Proofs.Expression.Literal
import Stepwise.Proofs.Text.Trimming

/-!
# Printed atoms are read back

The text of an atom is recognized as exactly the literal or the name that it prints,
and no longer once a space and more text follow it.

## Main definitions

* `Stepwise.Expression.IsPlain` — a character that neither splits nor delimits.
* `Stepwise.Expression.Shape` — what the text of an atom looks like to a scan.

## Main results

* `Stepwise.Expression.Atom.shape` — every printed atom has one of the shapes.
* `Stepwise.Expression.atom?_text` — a printed atom is read as its value.
* `Stepwise.Expression.Shape.atom?_append_space` — a printed atom with more behind it is
  no atom.
-/

namespace Stepwise.Expression

variable {c : Char} {t : Text} {env : Environment}

/-! ### Characters of atoms -/

/-- The character is visible and has no role in literals, groups or operators. -/
def IsPlain (c : Char) : Prop :=
  c ∉ Text.marks ∧ Text.isBlank c = false

theorem isPlain_of_isWordChar (h : Text.isWordChar c = true) : IsPlain c :=
  ⟨Text.not_mem_marks_of_isWordChar h, Text.isBlank_eq_false_of_isWordChar h⟩

theorem isWordChar_of_isDigit (h : c.isDigit = true) : Text.isWordChar c = true := by
  have hascii : c.toNat < 128 := by
    simp only [Char.isDigit, Bool.and_eq_true, decide_eq_true_eq, UInt32.le_iff_toNat_le] at h
    have hle : c.val.toNat ≤ 57 := h.2
    have hcode : c.toNat = c.val.toNat := rfl
    omega
  simp [Text.isWordChar, Text.isAlphanumeric_of_ascii hascii, Char.isAlphanum, h]

theorem isDigits_iff : isDigits t = true ↔ t ≠ [] ∧ ∀ c ∈ t, c.isDigit = true := by
  simp [isDigits]

theorem isWord_iff : Text.isWord t = true ↔ t ≠ [] ∧ ∀ c ∈ t, Text.isWordChar c = true := by
  simp [Text.isWord]

/-- What the text of an atom looks like to a scan: visible characters without a role,
possibly behind a sign, or a literal between two quotes. -/
inductive Shape : Text → Prop where
  | plain {body : Text} (hne : body ≠ []) (hplain : ∀ c ∈ body, IsPlain c) : Shape body
  | signed {body : Text} (sign : Sign) (hne : body ≠ []) (hplain : ∀ c ∈ body, IsPlain c) :
      Shape (sign.symbol :: body)
  | quoted {quote : Char} {body : Text} (hquote : Text.isQuote quote = true)
      (hbody : isLiteralBody quote body = true) : Shape (quote :: (body ++ [quote]))

theorem Decimal.isPlain_of_mem_unsigned (decimal : Decimal) :
    ∀ c ∈ decimal.unsigned, IsPlain c := by
  intro c hc
  rcases List.mem_append.mp hc with hc | hc
  · have hdigit := (isDigits_iff.mp decimal.isDigits_whole).2 c hc
    exact isPlain_of_isWordChar (isWordChar_of_isDigit hdigit)
  · cases hfraction : decimal.fraction with
    | none => simp [hfraction] at hc
    | some digits =>
      simp only [hfraction, Option.elim_some, List.mem_cons] at hc
      rcases hc with rfl | hc
      · exact ⟨by decide, by decide⟩
      · have hdigits := isDigits_iff.mp (decimal.isDigits_fraction digits hfraction)
        exact isPlain_of_isWordChar (isWordChar_of_isDigit (hdigits.2 c hc))

theorem Decimal.unsigned_ne_nil (decimal : Decimal) : decimal.unsigned ≠ [] := by
  simp [unsigned, (isDigits_iff.mp decimal.isDigits_whole).1]

theorem Decimal.text_cases (decimal : Decimal) :
    decimal.text = decimal.unsigned ∨
      ∃ sign : Sign, decimal.text = sign.symbol :: decimal.unsigned := by
  cases hsign : decimal.sign with
  | none => exact Or.inl (by simp [text, hsign])
  | some sign => exact Or.inr ⟨sign, by simp [text, hsign]⟩

theorem Shape.of_isWord (h : Text.isWord t = true) : Shape t :=
  .plain (isWord_iff.mp h).1 fun c hc => isPlain_of_isWordChar ((isWord_iff.mp h).2 c hc)

/-- Every printed atom has one of the shapes. -/
theorem Atom.shape (atom : Atom) : Shape atom.text := by
  cases atom with
  | decimal literal =>
    have hplain := literal.isPlain_of_mem_unsigned
    rcases literal.text_cases with htext | ⟨sign, htext⟩
    · rw [text, htext]
      exact .plain literal.unsigned_ne_nil hplain
    · rw [text, htext]
      exact .signed sign literal.unsigned_ne_nil hplain
  | quoted literal => exact .quoted literal.isQuote_quote literal.isLiteralBody_body
  | named literal => exact .of_isWord (by cases literal <;> decide)
  | identifier word => exact .of_isWord word.isWord_name

theorem isBlank_symbol (sign : Sign) : Text.isBlank sign.symbol = false := by
  cases sign <;> decide

theorem Shape.tight (h : Shape t) : Text.Tight t := by
  cases h with
  | plain hne hplain => exact .of_forall hne fun c hc => (hplain c hc).2
  | signed sign hne hplain =>
    refine .of_forall (List.cons_ne_nil _ _) fun c hc => ?_
    rcases List.mem_cons.mp hc with rfl | hc
    · exact isBlank_symbol sign
    · exact (hplain c hc).2
  | @quoted quote body hquote hbody =>
    have hblank := Text.isBlank_eq_false_of_isQuote hquote
    exact ⟨⟨quote, body ++ [quote], rfl, hblank⟩, ⟨quote :: body, quote, rfl, hblank⟩⟩

/-! ### Quoted literals -/

theorem stringLiteral?_quoted {quote : Char} {body : Text} (hquote : Text.isQuote quote = true)
    (hbody : isLiteralBody quote body = true) :
    stringLiteral? (quote :: (body ++ [quote])) = some body := by
  simp [stringLiteral?, hquote, hbody]

theorem stringLiteral?_plain {body : Text} (hne : body ≠ []) (hplain : ∀ c ∈ body, IsPlain c)
    (more : Text) : stringLiteral? (body ++ more) = none := by
  obtain ⟨c, rest, rfl⟩ := List.exists_cons_of_ne_nil hne
  have hquote := Text.isQuote_eq_false_of_not_mem_marks (hplain c List.mem_cons_self).1
  simp [stringLiteral?, hquote]

theorem stringLiteral?_signed (sign : Sign) (more : Text) :
    stringLiteral? (sign.symbol :: more) = none := by
  have hquote : Text.isQuote sign.symbol = false := by cases sign <;> decide
  simp [stringLiteral?, hquote]

/-- A printed atom with more behind it is no quoted literal. -/
theorem Shape.stringLiteral?_append_cons (h : Shape t) (more : Text) :
    stringLiteral? (t ++ c :: more) = none := by
  cases h with
  | plain hne hplain => exact stringLiteral?_plain hne hplain (c :: more)
  | signed sign hne hplain => exact stringLiteral?_signed sign _
  | @quoted quote body hquote hbody =>
    have hlast : (body ++ quote :: c :: more).dropLast =
        body ++ quote :: (c :: more).dropLast := by
      rw [List.dropLast_append_of_ne_nil (List.cons_ne_nil _ _), List.dropLast_cons_cons]
    have hnot := (isLiteralBody_iff.mp hbody).isLiteralBody_append_quote (t := (c :: more).dropLast)
      (ne_backslash_of_isQuote hquote)
    simp [stringLiteral?, hlast, hnot]

/-! ### Numbers -/

theorem splitSign_of_not_mem_marks (hc : c ∉ Text.marks) :
    Double.splitSign (c :: t) = (false, c :: t) := by
  have hminus : c ≠ '-' := by
    rintro rfl
    exact hc (by decide)
  have hplus : c ≠ '+' := by
    rintro rfl
    exact hc (by decide)
  unfold Double.splitSign
  split
  · rename_i heq
    exact absurd (List.cons.inj heq).1 hminus
  · rename_i heq
    exact absurd (List.cons.inj heq).1 hplus
  · rfl

theorem Decimal.splitSign_text (decimal : Decimal) :
    Double.splitSign decimal.text = (decimal.sign == some .minus, decimal.unsigned) := by
  cases hsign : decimal.sign with
  | none =>
    have htext : decimal.text = decimal.unsigned := by simp [text, hsign]
    obtain ⟨c, rest, hunsigned⟩ := List.exists_cons_of_ne_nil decimal.unsigned_ne_nil
    have hplain := decimal.isPlain_of_mem_unsigned c (by simp [hunsigned])
    rw [htext, hunsigned, splitSign_of_not_mem_marks hplain.1]
    rfl
  | some sign => cases sign <;> simp [text, hsign, Sign.symbol, Double.splitSign]

theorem splitDigits_append (ht : ∀ c ∈ t, c.isDigit = true) (rest : Text)
    (hrest : ∀ c ∈ rest.head?, c.isDigit = false) :
    Double.splitDigits (t ++ rest) = (t, rest) := by
  rw [Double.splitDigits, List.takeWhile_append_of_pos ht, List.dropWhile_append_of_pos ht]
  cases rest with
  | nil => simp
  | cons c rest => simp [hrest c rfl]

theorem splitDigits_of_isDigits (ht : isDigits t = true) : Double.splitDigits t = (t, []) := by
  have hsplit := splitDigits_append (isDigits_iff.mp ht).2 [] (by simp)
  simpa using hsplit

theorem ofText?_decimal (decimal : Decimal) : Double.ofText? decimal.text = some decimal.value := by
  have hwhole := isDigits_iff.mp decimal.isDigits_whole
  have hempty : decimal.whole.isEmpty = false := by simpa using hwhole.1
  have hsign := decimal.splitSign_text
  cases hfraction : decimal.fraction with
  | none =>
    have hdigits := splitDigits_of_isDigits decimal.isDigits_whole
    have hunsigned : decimal.unsigned = decimal.whole := by
      simp [Decimal.unsigned, hfraction]
    simp [Double.ofText?, hsign, hunsigned, hdigits, hempty, Double.exponentOf?, Decimal.value,
      hfraction]
  | some fraction =>
    have hunsigned : decimal.unsigned = decimal.whole ++ '.' :: fraction := by
      simp [Decimal.unsigned, hfraction]
    have hdigits : Double.splitDigits (decimal.whole ++ '.' :: fraction) =
        (decimal.whole, '.' :: fraction) := splitDigits_append hwhole.2 _ (by simp)
    have hbehind := splitDigits_of_isDigits (decimal.isDigits_fraction fraction hfraction)
    have hbehindNonempty : fraction ≠ [] :=
      (isDigits_iff.mp (decimal.isDigits_fraction fraction hfraction)).1
    simp [Double.ofText?, hsign, hunsigned, hdigits, hbehind, hempty, Double.exponentOf?,
      Decimal.value, hfraction, hbehindNonempty, List.length_pos_iff]

theorem Decimal.takeWhile_unsigned (decimal : Decimal) :
    decimal.unsigned.takeWhile (· != '.') = decimal.whole := by
  have hne : ∀ c ∈ decimal.whole, (c != '.') = true := by
    intro c hc
    have hdigit := (isDigits_iff.mp decimal.isDigits_whole).2 c hc
    rw [bne_iff_ne]
    rintro rfl
    exact absurd hdigit (by decide)
  rw [unsigned, List.takeWhile_append_of_pos hne]
  cases decimal.fraction <;> simp

/-- A printed decimal is read as its value. -/
theorem numberLiteral?_decimal (decimal : Decimal) :
    numberLiteral? decimal.text = some decimal.value := by
  have hrest : decimal.unsigned.drop decimal.whole.length =
      decimal.fraction.elim [] ('.' :: ·) := by simp [Decimal.unsigned]
  cases hfraction : decimal.fraction with
  | none =>
    rw [hfraction, Option.elim_none] at hrest
    simp [numberLiteral?, decimal.splitSign_text, decimal.takeWhile_unsigned, hrest,
      decimal.isDigits_whole, ofText?_decimal]
  | some fraction =>
    rw [hfraction, Option.elim_some] at hrest
    simp [numberLiteral?, decimal.splitSign_text, decimal.takeWhile_unsigned, hrest,
      decimal.isDigits_whole, decimal.isDigits_fraction fraction hfraction, ofText?_decimal]

/-- A word that is no integer is no number. -/
theorem numberLiteral?_word (hword : Text.isWord t = true) (hdigits : isDigits t = false) :
    numberLiteral? t = none := by
  obtain ⟨hne, hchars⟩ := isWord_iff.mp hword
  have hsign : Double.splitSign t = (false, t) := by
    obtain ⟨c, rest, rfl⟩ := List.exists_cons_of_ne_nil hne
    exact splitSign_of_not_mem_marks (isPlain_of_isWordChar (hchars c List.mem_cons_self)).1
  have hwhole : t.takeWhile (· != '.') = t := by
    rw [List.takeWhile_eq_self_iff]
    intro c hc
    rw [bne_iff_ne]
    rintro rfl
    exact absurd (hchars _ hc) (by decide)
  simp [numberLiteral?, hsign, hwhole, hdigits]

theorem isDigits_of_space (h : ' ' ∈ t) : isDigits t = false := by
  by_contra hdigits
  have hdigit := (isDigits_iff.mp (eq_true_of_ne_false hdigits)).2 ' ' h
  exact absurd hdigit (by decide)

/-- No number contains a space. -/
theorem numberLiteral?_of_space (h : ' ' ∈ t) : numberLiteral? t = none := by
  have hspace : ' ' ∈ (Double.splitSign t).2 := by
    unfold Double.splitSign
    split <;> simp_all
  generalize hunsigned : (Double.splitSign t).2 = unsigned at hspace
  have hsplit := List.takeWhile_append_dropWhile (p := (· != '.')) (l := unsigned)
  -- The space is before the point, or else behind it, and makes that part no digits.
  have hparts : isDigits (unsigned.takeWhile (· != '.')) = false ∨
      ∃ c fraction, unsigned.dropWhile (· != '.') = c :: fraction ∧ isDigits fraction = false := by
    rw [← hsplit, List.mem_append] at hspace
    rcases hspace with hspace | hspace
    · exact Or.inl (isDigits_of_space hspace)
    · obtain ⟨c, fraction, hpoint⟩ := List.exists_cons_of_ne_nil (List.ne_nil_of_mem hspace)
      have hc := List.head_dropWhile_not (· != '.') (l := unsigned) (by simp [hpoint])
      have hc : c = '.' := by simpa [hpoint] using hc
      rw [hpoint, hc] at hspace
      have hspace : ' ' ∈ fraction := by simpa using hspace
      exact Or.inr ⟨c, fraction, hpoint, isDigits_of_space hspace⟩
  have hdrop : unsigned.drop (unsigned.takeWhile (· != '.')).length =
      unsigned.dropWhile (· != '.') := by
    have hlength := congrArg (List.drop (unsigned.takeWhile (· != '.')).length) hsplit
    rw [← hlength, List.drop_left]
  rcases hparts with hwhole | ⟨c, fraction, hpoint, hfraction⟩
  · simp [numberLiteral?, hunsigned, hwhole]
  · simp [numberLiteral?, hunsigned, hdrop, hpoint, hfraction]

/-! ### Reading atoms -/

theorem keywordLiteral?_named (literal : NamedLiteral) :
    keywordLiteral? literal.text = some literal.value := by
  cases literal <;> rfl

theorem keywordLiteral?_eq_none (h : ∀ literal : NamedLiteral, t ≠ literal.text) :
    keywordLiteral? t = none := by
  have htrue : t ≠ "true".toList := h .true_
  have hfalse : t ≠ "false".toList := h .false_
  have hnull : t ≠ "null".toList := h .null
  have hundefined : t ≠ "undefined".toList := h .undefined
  simp only [keywordLiteral?, if_neg htrue, if_neg hfalse, if_neg hnull, if_neg hundefined]

theorem structuredLiteral?_eq_none (hsquare : c ≠ '[') (hcurly : c ≠ '{') :
    structuredLiteral? (c :: t) = none := by
  simp [structuredLiteral?, hsquare, hcurly]

/-- No atom starts like an array or an object. -/
theorem Shape.structuredLiteral?_append (h : Shape t) (more : Text) :
    structuredLiteral? (t ++ more) = none := by
  obtain ⟨c, rest, rfl, hc⟩ : ∃ c rest, t = c :: rest ∧ c ≠ '[' ∧ c ≠ '{' := by
    cases h with
    | plain hne hplain =>
      obtain ⟨c, rest, rfl⟩ := List.exists_cons_of_ne_nil hne
      refine ⟨c, rest, rfl, ?_⟩
      constructor <;> rintro rfl <;> exact (hplain _ List.mem_cons_self).1 (by decide)
    | signed sign hne hplain =>
      exact ⟨sign.symbol, _, rfl, by cases sign <;> decide, by cases sign <;> decide⟩
    | quoted hquote hbody =>
      refine ⟨_, _, rfl, ?_⟩
      rcases Text.isQuote_iff.mp hquote with rfl | rfl | rfl <;> decide
  exact structuredLiteral?_eq_none hc.1 hc.2

/-- A printed atom is read as its value. -/
theorem atom?_text (atom : Atom) : atom? env atom.text = some (atom.value env) := by
  cases atom with
  | decimal literal =>
    have hstring : stringLiteral? literal.text = none := by
      rcases literal.text_cases with htext | ⟨sign, htext⟩
      · rw [htext]
        simpa using stringLiteral?_plain literal.unsigned_ne_nil literal.isPlain_of_mem_unsigned []
      · rw [htext, stringLiteral?_signed]
    simp [atom?, Atom.text, Atom.value, hstring, numberLiteral?_decimal]
  | quoted literal =>
    have hstring := stringLiteral?_quoted literal.isQuote_quote literal.isLiteralBody_body
    simp [atom?, Atom.text, Atom.value, Quoted.text, hstring]
  | named literal =>
    have hstring : stringLiteral? literal.text = none := by cases literal <;> rfl
    have hnumber : numberLiteral? literal.text = none :=
      numberLiteral?_word (by cases literal <;> decide) (by cases literal <;> decide)
    simp [atom?, Atom.text, Atom.value, hstring, hnumber, keywordLiteral?_named]
  | identifier word =>
    obtain ⟨hne, hchars⟩ := isWord_iff.mp word.isWord_name
    have hplain : ∀ c ∈ word.name, IsPlain c := fun c hc => isPlain_of_isWordChar (hchars c hc)
    have hstring : stringLiteral? word.name = none := by
      simpa using stringLiteral?_plain hne hplain []
    have hnumber := numberLiteral?_word word.isWord_name word.isDigits_name
    have hkeyword := keywordLiteral?_eq_none word.ne_literal
    have hstructured : structuredLiteral? word.name = none := by
      simpa using (Shape.of_isWord word.isWord_name).structuredLiteral?_append []
    simp [atom?, Atom.text, Atom.value, hstring, hnumber, hkeyword, hstructured, word.isWord_name]

/-- The text of an atom with a space and more behind it is no atom. -/
theorem Shape.atom?_append_space (h : Shape t) (more : Text) :
    atom? env (t ++ ' ' :: more) = none := by
  have hspace : ' ' ∈ t ++ ' ' :: more := by simp
  have hstring := h.stringLiteral?_append_cons (c := ' ') more
  have hnumber := numberLiteral?_of_space hspace
  have hkeyword : keywordLiteral? (t ++ ' ' :: more) = none := by
    refine keywordLiteral?_eq_none fun literal heq => ?_
    rw [heq] at hspace
    revert hspace
    cases literal <;> decide
  have hstructured := h.structuredLiteral?_append (' ' :: more)
  have hword : Text.isWord (t ++ ' ' :: more) = false := by
    by_contra hword
    have hchar := (isWord_iff.mp (eq_true_of_ne_false hword)).2 ' ' hspace
    exact absurd hchar (by decide)
  simp [atom?, hstring, hnumber, hkeyword, hstructured, hword]

end Stepwise.Expression
