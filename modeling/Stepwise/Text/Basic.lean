/-!
# Texts

A text is a list of characters. Snippets are short, every question asked about
them is answered by walking over their characters, and positions are reported as
lengths in bytes of the UTF-8 encoding.

## Main definitions

* `Stepwise.Text` — a list of characters.
* `Stepwise.Text.byteLength` — the length of the UTF-8 encoding.
* `Stepwise.Text.isBlank`, `trim`, `trimLeft`, `trimRight` — white space and its
  removal at the ends.
* `Stepwise.Text.join`, `splitOn` — lists of texts with a separator.
* `Stepwise.Text.afterLead` — what follows a leading piece.
* `Stepwise.Text.padLeft`, `padRight` — filling up to a width.
-/

namespace Stepwise

/-- A text is a list of characters. -/
abbrev Text := List Char

namespace Text

/-- The text of a natural number in base ten. -/
def ofNat (n : Nat) : Text := Nat.toDigits 10 n

/-- The text of an integer in base ten, with a minus sign where it is negative. -/
def ofInt : Int → Text
  | .ofNat n => ofNat n
  | .negSucc n => '-' :: ofNat (n + 1)

/-- Different numbers are written differently. -/
theorem ofNat_injective {m n : Nat} (h : ofNat m = ofNat n) : m = n := by
  have hread := congrArg (fun digits => Nat.ofDigitChars 10 digits 0) h
  simpa only [ofNat, Nat.ofDigitChars_ten_toDigits] using hread

/-- Different integers are written differently. -/
theorem ofInt_injective {m n : Int} (h : ofInt m = ofInt n) : m = n := by
  -- No digit is a minus sign.
  have hminus : ∀ (k : Nat) (digits : Text), ofNat k ≠ '-' :: digits := by
    intro k digits hk
    have hmem : '-' ∈ ofNat k := hk ▸ List.mem_cons_self
    exact absurd (Nat.isDigit_of_mem_toDigits (by decide) (by decide) hmem) (by decide)
  match m, n with
  | .ofNat m, .ofNat n => rw [ofNat_injective h]
  | .ofNat m, .negSucc n => exact absurd h (hminus m _)
  | .negSucc m, .ofNat n => exact absurd h.symm (hminus n _)
  | .negSucc m, .negSucc n => rw [Nat.succ.inj (ofNat_injective (List.cons.inj h).2)]

/-- The number of bytes of the UTF-8 encoding. -/
def byteLength (text : Text) : Nat :=
  text.foldr (fun c size => c.utf8Size + size) 0

@[simp] theorem byteLength_nil : byteLength [] = 0 := rfl

@[simp] theorem byteLength_cons (c : Char) (text : Text) :
    byteLength (c :: text) = c.utf8Size + byteLength text := rfl

@[simp] theorem byteLength_append (s t : Text) :
    byteLength (s ++ t) = byteLength s + byteLength t := by
  induction s with
  | nil => simp
  | cons c s ih => simp [ih, Nat.add_assoc]

@[simp] theorem byteLength_reverse (text : Text) :
    byteLength text.reverse = byteLength text := by
  induction text with
  | nil => rfl
  | cons c text ih => simp [ih, Nat.add_comm]

/-! ### Order -/

/-- Texts are ordered by their first different characters, and a text comes after each
of its beginnings. -/
def before : Text → Text → Bool
  | _, [] => false
  | [], _ :: _ => true
  | c :: s, d :: t => if c = d then before s t else c.toNat < d.toNat

/-- No text comes before itself. -/
theorem before_self (text : Text) : before text text = false := by
  induction text with
  | nil => rfl
  | cons c text ih => simp [before, ih]

/-- Of two texts that come before each other neither way, both are the same. -/
theorem eq_of_not_before {s t : Text} (h : before s t = false) (h' : before t s = false) :
    s = t := by
  induction s generalizing t with
  | nil => cases t with
    | nil => rfl
    | cons d t => simp [before] at h
  | cons c s ih => cases t with
    | nil => simp [before] at h'
    | cons d t =>
      by_cases hc : c = d
      · subst hc
        simp only [before, if_true] at h h'
        rw [ih h h']
      · simp only [before, if_neg hc, if_neg (Ne.symm hc), decide_eq_false_iff_not] at h h'
        exact absurd (Char.toNat_inj.mp (by omega)) hc

/-- Of two texts at most one comes before the other. -/
theorem before_asymm {s t : Text} (h : before s t = true) : before t s = false := by
  induction s generalizing t with
  | nil => cases t with
    | nil => cases h
    | cons d t => rfl
  | cons c s ih => cases t with
    | nil => cases h
    | cons d t =>
      by_cases hc : c = d
      · subst hc
        simp only [before, if_true] at h ⊢
        exact ih h
      · simp only [before, if_neg hc, if_neg (Ne.symm hc), decide_eq_true_eq,
          decide_eq_false_iff_not] at h ⊢
        omega

/-- A text does not come after another one if it comes before it or is the same. -/
theorem not_before_iff {s t : Text} : before t s = false ↔ before s t = true ∨ s = t := by
  constructor
  · intro h
    cases h' : before s t with
    | true => exact .inl rfl
    | false => exact .inr (eq_of_not_before h' h)
  · rintro (h | rfl)
    · exact before_asymm h
    · exact before_self s

/-! ### White space -/

/-- The 25 characters with the Unicode property White_Space. -/
def isBlank (c : Char) : Bool :=
  let n := c.toNat
  (9 ≤ n && n ≤ 13) || n == 0x20 || n == 0x85 || n == 0xA0 || n == 0x1680 ||
    (0x2000 ≤ n && n ≤ 0x200A) || n == 0x2028 || n == 0x2029 || n == 0x202F ||
    n == 0x205F || n == 0x3000

/-- The text without its leading white space. -/
def trimLeft (text : Text) : Text :=
  text.dropWhile isBlank

/-- The text without its trailing white space. -/
def trimRight (text : Text) : Text :=
  (text.reverse.dropWhile isBlank).reverse

/-- The text without white space at either end. -/
def trim (text : Text) : Text :=
  trimRight (trimLeft text)

theorem length_trimLeft_le (text : Text) : (trimLeft text).length ≤ text.length :=
  (List.dropWhile_sublist _).length_le

theorem length_trimRight_le (text : Text) : (trimRight text).length ≤ text.length := by
  simpa [trimRight] using (List.dropWhile_sublist (l := text.reverse) isBlank).length_le

theorem length_trim_le (text : Text) : (trim text).length ≤ text.length :=
  Nat.le_trans (length_trimRight_le _) (length_trimLeft_le _)

/-- Trimming on the right keeps a leading part. -/
theorem trimRight_isPrefixOf (text : Text) : trimRight text <+: text := by
  have h := List.reverse_prefix.mpr (List.dropWhile_suffix (l := text.reverse) isBlank)
  simpa [trimRight] using h

/-! ### Pieces -/

/-- What follows `lead` in a text that starts with it. -/
def afterLead : Text → Text → Option Text
  | [], text => some text
  | _ :: _, [] => none
  | l :: lead, c :: text => if l = c then afterLead lead text else none

theorem afterLead_eq_some_iff {lead text rest : Text} :
    afterLead lead text = some rest ↔ text = lead ++ rest := by
  induction lead generalizing text with
  | nil => simp [afterLead]
  | cons l lead ih =>
    cases text with
    | nil => simp [afterLead]
    | cons c text =>
      by_cases h : l = c
      · subst h
        simp [afterLead, ih]
      · simp [afterLead, h, Ne.symm h]

/-- The text begins with `lead`. -/
def startsWith (lead text : Text) : Bool :=
  (afterLead lead text).isSome

/-- The pieces between the occurrences of a character; there is always at least
one. -/
def splitOn (separator : Char) : Text → List Text
  | [] => [[]]
  | c :: rest =>
    if c = separator then [] :: splitOn separator rest
    else match splitOn separator rest with
      | [] => [[c]]
      | piece :: pieces => (c :: piece) :: pieces

/-- The texts one after the other with `separator` between neighbours. -/
def join (separator : Text) : List Text → Text
  | [] => []
  | [text] => text
  | text :: others => text ++ separator ++ join separator others

/-! ### Widths -/

/-- The text moved to the right end of a field of the given width. -/
def padLeft (width : Nat) (text : Text) : Text :=
  List.replicate (width - text.length) ' ' ++ text

/-- The text at the left end of a field of the given width. -/
def padRight (width : Nat) (text : Text) : Text :=
  text ++ List.replicate (width - text.length) ' '

end Text

end Stepwise
