import Stepwise.Proofs.Expression.Sealed
import Stepwise.Proofs.Text.Trimming

/-!
# Replacing sealed pieces

Where a text is split or cut depends on the characters at the top level and on their
neighbours. Next to a sealed piece stands one of its delimiters, and a delimiter belongs to
no operator, separator or comment. So a sealed piece in a text can be replaced by any other
one, and the same splits and cuts are made.

## Main definitions

* `Stepwise.Expression.Guarded` — a text that starts with a delimiter.
* `Stepwise.Expression.Part` — a part of a text with a piece in it that can be replaced.

## Main results

* `Stepwise.Expression.topLevel_sealed` — the top level of a text around a sealed piece.
* `Stepwise.Expression.splitComparison_sealed`, `splitArithmetic_sealed`,
  `cutStatement_sealed`, `splitTopLevel_sealed` — splitting and cutting around a sealed piece.
* `Stepwise.Expression.split_replacement` — any sealed piece can stand for any other.
-/

namespace Stepwise.Expression

open Text (Brackets ScanState Spot cutStatement endsStatement scanFrom splitFrom splitTopLevel
  topLevel)

/-! ### Neighbours -/

/-- The text starts with a delimiter. -/
def Guarded (text : Text) : Prop :=
  ∃ delimiter ∈ delimiters, ∃ rest, text = delimiter :: rest

variable {c : Char} {more pre post piece : Text}

/-- To a character that is no delimiter, the start of a guarded text is as good as the end of
the text. -/
theorem Guarded.head?_append (hmore : Guarded more) (hc : c ∉ delimiters) (t : Text) :
    ((t ++ more).head? == some c) = (t.head? == some c) := by
  obtain ⟨d, hd, rest, rfl⟩ := hmore
  cases t with
  | cons => rfl
  | nil =>
    have hne : d ≠ c := fun heq => hc (heq ▸ hd)
    simpa using hne

theorem of_mem_delimiters {p : Char → Bool} (hall : delimiters.all p = true)
    (h : c ∈ delimiters) : p c = true :=
  List.all_eq_true.1 hall c h

theorem isBlank_of_mem_delimiters (h : c ∈ delimiters) : Text.isBlank c = false := by
  have := of_mem_delimiters (p := fun d => !Text.isBlank d) (by decide) h
  simpa using this

theorem isOperatorChar_of_mem_delimiters (h : c ∈ delimiters) : isOperatorChar c = false := by
  have := of_mem_delimiters (p := fun d => !isOperatorChar d) (by decide) h
  simpa using this

theorem ofChar?_of_mem_delimiters (h : c ∈ delimiters) : Arithmetic.ofChar? c = none := by
  have := of_mem_delimiters (p := fun d => (Arithmetic.ofChar? d).isNone) (by decide) h
  simpa using this

theorem not_mem_symbol_of_mem_delimiters (h : c ∈ delimiters) (op : Comparison) :
    c ∉ op.symbol := by
  have := of_mem_delimiters (p := fun d => !op.symbol.contains d) (by cases op <;> decide) h
  simpa using this

/-! ### Parts -/

/-- A part of a text: one without the piece that can be replaced, or what stands around it. -/
inductive Part where
  | fixed (text : Text)
  | around (before behind : Text)

namespace Part

/-- The part with a piece in it. -/
def fill (piece : Text) : Part → Text
  | .fixed text => text
  | .around before behind => before ++ piece ++ behind

/-- The two sides of an operator with a piece in them. -/
def fillSides {α : Type} (piece : Text) (sides : Part × α × Part) : Text × α × Text :=
  (sides.1.fill piece, sides.2.1, sides.2.2.fill piece)

end Part

/-! ### The top level around a sealed piece -/

/-- Of a text around a sealed piece, a scan shows what it shows of the two parts, and two
delimiters between them. -/
theorem topLevel_sealed (hpre : ScanState.start.run .all pre = .code 0) (hpiece : Sealed piece)
    (post : Text) :
    ∃ first last : Spot, first.char ∈ delimiters ∧ last.char ∈ delimiters ∧
      Guarded (piece ++ post) ∧ Guarded (pre ++ piece).reverse ∧
      topLevel (pre ++ piece ++ post) =
        (topLevel pre).map (Spot.extend (piece ++ post)) ++
          first :: last :: (topLevel post).map (Spot.shift (pre ++ piece).reverse) := by
  obtain ⟨first, body, last, hfirst, hlast, hparts, hscan⟩ := hpiece.scanned.scan_eq
  refine ⟨⟨pre.reverse, first, body ++ last :: post⟩,
    ⟨body.reverse ++ first :: pre.reverse, last, post⟩, hfirst, hlast, ?_, ?_, ?_⟩
  · exact ⟨first, hfirst, body ++ [last] ++ post, by rw [hparts, List.cons_append]⟩
  · exact ⟨last, hlast, (pre ++ first :: body).reverse, by simp [hparts]⟩
  · have hpost : scanFrom .all (.code 0) ([] ++ (pre ++ piece).reverse) post =
        (topLevel post).map (Spot.shift (pre ++ piece).reverse) := Text.scanFrom_shift
    rw [List.nil_append] at hpost
    rw [topLevel, Text.scan, List.append_assoc, Text.scanFrom_append, hpre, List.append_nil,
      hscan, ← List.reverse_append, hpost]
    rfl

/-! ### Comparisons -/

/-- A leading piece without delimiters does not reach into a guarded text. -/
theorem afterLead_append (hmore : Guarded more) {lead : Text}
    (hlead : ∀ d ∈ delimiters, d ∉ lead) (t : Text) :
    Text.afterLead lead (t ++ more) = (Text.afterLead lead t).map (· ++ more) := by
  induction lead generalizing t with
  | nil => rfl
  | cons l lead ih =>
    have hrest : ∀ d ∈ delimiters, d ∉ lead := fun d hd hmem =>
      hlead d hd (List.mem_cons_of_mem l hmem)
    cases t with
    | nil =>
      obtain ⟨d, hd, rest, rfl⟩ := hmore
      have hne : l ≠ d := by
        rintro rfl
        exact hlead l hd List.mem_cons_self
      simp [Text.afterLead, hne]
    | cons c t =>
      simp only [List.cons_append, Text.afterLead, ih hrest]
      split <;> rfl

/-- A comparison does not reach into a guarded text. -/
theorem leading?_append (hmore : Guarded more) (t : Text) :
    Comparison.leading? (t ++ more) =
      (Comparison.leading? t).map fun found => (found.1, found.2 ++ more) := by
  rw [Comparison.leading?, Comparison.leading?, List.map_findSome?]
  congr 1
  funext op
  have hsymbol : ∀ d ∈ delimiters, d ∉ op.symbol := fun d hd =>
    not_mem_symbol_of_mem_delimiters hd op
  rw [afterLead_append hmore hsymbol, Option.map_map, Function.comp_apply, Option.map_map]
  rfl

/-- No comparison starts with a delimiter. -/
theorem comparisonAt?_delimiter (spot : Spot) (h : spot.char ∈ delimiters) :
    comparisonAt? spot = none := by
  have hnone : Comparison.leading? spot.rest = none := by
    cases hleading : Comparison.leading? spot.rest with
    | none => rfl
    | some found =>
      exfalso
      have hsymbol := Comparison.leading?_eq_some hleading
      have hnot := not_mem_symbol_of_mem_delimiters h found.1
      cases hop : found.1.symbol with
      | nil => cases hfound : found.1 <;> rw [hfound] at hop <;> cases hop
      | cons d symbol =>
        rw [hop, Spot.rest, List.cons_append] at hsymbol
        rw [hop, (List.cons.inj hsymbol).1] at hnot
        exact hnot List.mem_cons_self
  rw [comparisonAt?, hnone]
  rfl

/-- A guarded text behind the place of a comparison does not matter to it. -/
theorem comparisonAt?_extend (hmore : Guarded more) (spot : Spot) :
    comparisonAt? (spot.extend more) =
      (comparisonAt? spot).map fun found => (found.1, found.2 ++ more) := by
  by_cases hchar : spot.char ∈ delimiters
  · rw [comparisonAt?_delimiter spot hchar, comparisonAt?_delimiter (spot.extend more) hchar]
    rfl
  · have hrest : (spot.extend more).rest = spot.rest ++ more := rfl
    rw [comparisonAt?, comparisonAt?, hrest, leading?_append hmore, Option.filter_map]
    congr 2
    funext found
    simp only [Function.comp_apply, Spot.extend_char, hmore.head?_append hchar]
    rfl

/-- A guarded text before the place of a comparison does not matter to it. -/
theorem comparisonAt?_shift (hmore : Guarded more) (spot : Spot) :
    comparisonAt? (spot.shift more) = comparisonAt? spot := by
  by_cases hchar : spot.char ∈ delimiters
  · rw [comparisonAt?_delimiter spot hchar, comparisonAt?_delimiter (spot.shift more) hchar]
  · have hequals : ((spot.shift more).before.head? == some '=') =
        (spot.before.head? == some '=') := hmore.head?_append (by decide) spot.before
    have hsame : ((spot.shift more).before.head? == some spot.char) =
        (spot.before.head? == some spot.char) := hmore.head?_append hchar spot.before
    rw [comparisonAt?, comparisonAt?]
    simp only [Text.Spot.shift_char, hequals, hsame]
    rfl

/-- The sides of the first comparison around a piece: that of the text before it, or else
that of the text behind it. -/
def comparisonSides (pre post : Text) : Option (Part × Comparison × Part) :=
  ((splitComparison pre).map fun found => (.fixed found.1, found.2.1, .around found.2.2 post)).or
    ((splitComparison post).map fun found => (.around pre found.1, found.2.1, .fixed found.2.2))

/-- A comparison around a sealed piece is found whatever the piece is. -/
theorem splitComparison_sealed (hpre : ScanState.start.run .all pre = .code 0)
    (hpiece : Sealed piece) (post : Text) :
    splitComparison (pre ++ piece ++ post) =
      (comparisonSides pre post).map (Part.fillSides piece) := by
  obtain ⟨first, last, hfirst, hlast, hbehind, hbefore, htop⟩ := topLevel_sealed hpre hpiece post
  rw [comparisonSides, Option.map_or, Option.map_map, Option.map_map]
  simp only [splitComparison, htop, List.findSome?_append, List.findSome?_cons,
    comparisonAt?_delimiter first hfirst, comparisonAt?_delimiter last hlast, Option.map_none,
    List.findSome?_map, List.map_findSome?]
  congr 2
  · funext spot
    simp only [Function.comp_apply, comparisonAt?_extend hbehind, Option.map_map]
    congr 1
    funext found
    simp [Part.fillSides, Part.fill, Spot.extend, Spot.left]
  · funext spot
    simp only [Function.comp_apply, comparisonAt?_shift hbefore, Option.map_map,
      Spot.left_shift]
    rfl

/-! ### Arithmetic -/

theorem isArrow_delimiter (spot : Spot) (h : spot.char ∈ delimiters) : isArrow spot = false := by
  have hne : spot.char ≠ '=' := by
    intro heq
    rw [heq] at h
    exact absurd h (by decide)
  simp [isArrow, hne]

theorem isArrow_extend (hmore : Guarded more) (spot : Spot) :
    isArrow (spot.extend more) = isArrow spot := by
  have hhead : ((spot.extend more).after.head? == some '>') = (spot.after.head? == some '>') :=
    hmore.head?_append (by decide) spot.after
  rw [isArrow, isArrow, hhead, Spot.extend_char]

/-- A guarded text behind an operator does not matter to it. -/
theorem isBinary_extend (hmore : Guarded more) (op : Arithmetic) (previous : Option Char)
    (spot : Spot) (hchar : spot.char ∉ delimiters) :
    isBinary op previous (spot.extend more) = isBinary op previous spot := by
  have hsame : ((spot.extend more).after.head? == some spot.char) =
      (spot.after.head? == some spot.char) := hmore.head?_append hchar spot.after
  have hequals : ((spot.extend more).after.head? == some '=') =
      (spot.after.head? == some '=') := hmore.head?_append (by decide) spot.after
  simp only [isBinary, bne, Spot.extend_char, hsame, hequals]
  rfl

/-- A guarded text before an operator does not matter to it. -/
theorem isBinary_shift (hmore : Guarded more) (op : Arithmetic) (previous : Option Char)
    (spot : Spot) (hchar : spot.char ∉ delimiters) :
    isBinary op previous (spot.shift more) = isBinary op previous spot := by
  have hsame : ((spot.shift more).before.head? == some spot.char) =
      (spot.before.head? == some spot.char) := hmore.head?_append hchar spot.before
  simp only [isBinary, Spot.shift_char, hsame]
  rfl

/-- The operators of places that are moved, if moving keeps what the places are looked at
for. -/
theorem operators_map (move : Spot → Spot) (hchar : ∀ spot, (move spot).char = spot.char)
    (hbinary : ∀ op previous (spot : Spot), spot.char ∉ delimiters →
      isBinary op previous (move spot) = isBinary op previous spot)
    (previous : Option Char) (spots : List Spot) :
    operators previous (spots.map move) =
      (operators previous spots).map fun found => (found.1, move found.2) := by
  induction spots generalizing previous with
  | nil => rfl
  | cons spot spots ih =>
    simp only [List.map_cons, operators, hchar, ih]
    split
    · rfl
    · cases hop : Arithmetic.ofChar? spot.char with
      | none => rfl
      | some op =>
        have hnot : spot.char ∉ delimiters := by
          intro hmem
          rw [ofChar?_of_mem_delimiters hmem] at hop
          cases hop
        simp only [hbinary op previous spot hnot]
        split <;> rfl

/-- Of the last character before some places, only whether it is an operator matters. -/
theorem operators_congr {previous previous' : Option Char}
    (h : previous.all isOperatorChar = previous'.all isOperatorChar) (spots : List Spot) :
    operators previous spots = operators previous' spots := by
  induction spots generalizing previous previous' with
  | nil => rfl
  | cons spot spots ih =>
    have hbinary : ∀ op, isBinary op previous spot = isBinary op previous' spot := fun op => by
      rw [isBinary, isBinary, h]
    simp only [operators, ih h, hbinary]

theorem operators_cons_delimiter {delimiter : Spot} (h : delimiter.char ∈ delimiters)
    (previous : Option Char) (others : List Spot) :
    operators previous (delimiter :: others) = operators (some delimiter.char) others := by
  simp [operators, isBlank_of_mem_delimiters h, ofChar?_of_mem_delimiters h]

/-- A delimiter parts the operators before it from those behind it. -/
theorem operators_append_delimiter {delimiter : Spot} (h : delimiter.char ∈ delimiters)
    (previous : Option Char) (spots others : List Spot) :
    operators previous (spots ++ delimiter :: others) =
      operators previous spots ++ operators (some delimiter.char) others := by
  induction spots generalizing previous with
  | nil => exact operators_cons_delimiter h previous others
  | cons spot spots ih =>
    simp only [List.cons_append, operators, ih]
    split
    · rfl
    · cases Arithmetic.ofChar? spot.char with
      | none => rfl
      | some op =>
        simp only
        split <;> rfl

theorem loosest_map {α β : Type} (found : List (Arithmetic × α)) (g : α → β) :
    loosest (found.map fun f => (f.1, g f.2)) = (loosest found).map fun f => (f.1, g f.2) := by
  rw [loosest, loosest, List.filter_map, List.getLast?_map, List.getLast?_map, ← Option.map_or]
  rfl

/-- A place before or behind the piece. -/
inductive Place where
  | front (spot : Spot)
  | back (spot : Spot)

namespace Place

/-- The place in the whole text. -/
def toSpot (pre piece post : Text) : Place → Spot
  | .front spot => spot.extend (piece ++ post)
  | .back spot => spot.shift (pre ++ piece).reverse

/-- What stands to the left of the place. -/
def left (pre : Text) : Place → Part
  | .front spot => .fixed spot.left
  | .back spot => .around pre spot.left

/-- What stands to the right of the place. -/
def right (post : Text) : Place → Part
  | .front spot => .around spot.after post
  | .back spot => .fixed spot.after

theorem left_toSpot (place : Place) :
    (place.toSpot pre piece post).left = (place.left pre).fill piece := by
  cases place with
  | front => rfl
  | back spot => exact Spot.left_shift (pre ++ piece) spot

theorem after_toSpot (place : Place) :
    (place.toSpot pre piece post).after = (place.right post).fill piece := by
  cases place with
  | front spot => exact (List.append_assoc _ _ _).symm
  | back => rfl

end Place

/-- The operators around a piece. The piece is an operand, as a closing bracket shows. -/
def operatorPlaces (pre post : Text) : List (Arithmetic × Place) :=
  ((operators none (topLevel pre)).map fun found => (found.1, .front found.2)) ++
    (operators (some ')') (topLevel post)).map fun found => (found.1, .back found.2)

/-- The operators around a sealed piece are found whatever the piece is. -/
theorem operators_sealed (hpre : ScanState.start.run .all pre = .code 0)
    (hpiece : Sealed piece) (post : Text) :
    operators none (topLevel (pre ++ piece ++ post)) =
      (operatorPlaces pre post).map fun found => (found.1, found.2.toSpot pre piece post) := by
  obtain ⟨first, last, hfirst, hlast, hbehind, hbefore, htop⟩ := topLevel_sealed hpre hpiece post
  -- Behind the piece its last delimiter is the last character seen, which is no operator.
  have hlast' : (some last.char).all isOperatorChar = (some ')').all isOperatorChar :=
    isOperatorChar_of_mem_delimiters hlast
  rw [htop, operators_append_delimiter hfirst, operators_cons_delimiter hlast,
    operators_congr hlast', operators_map _ Spot.extend_char (isBinary_extend hbehind),
    operators_map _ (Spot.shift_char _) (isBinary_shift hbefore), operatorPlaces, List.map_append,
    List.map_map, List.map_map]
  rfl

/-- The part is blank, whatever sealed piece stands in it. -/
def Part.isBlank : Part → Bool
  | .fixed text => (Text.trim text).isEmpty
  | .around _ _ => false

/-- A part with a sealed piece in it is not blank. -/
theorem Part.isEmpty_trim_fill (hpiece : Sealed piece) (part : Part) :
    (Text.trim (part.fill piece)).isEmpty = part.isBlank := by
  cases part with
  | fixed text => rfl
  | around before behind =>
    obtain ⟨first, body, last, hfirst, _, rfl, _⟩ := hpiece.scanned.scan_eq
    rw [fill, List.append_assoc, List.cons_append]
    exact Text.isEmpty_trim_eq_false (isBlank_of_mem_delimiters hfirst) _ _

/-- The sides of the operator at which a text is split around a piece. -/
def arithmeticSides (pre post : Text) : Option (Part × Arithmetic × Part) :=
  if (topLevel pre).any isArrow || (topLevel post).any isArrow then none
  else (loosest (operatorPlaces pre post)).bind fun found =>
    let left := found.2.left pre
    let right := found.2.right post
    if left.isBlank || right.isBlank then none else some (left, found.1, right)

/-- A text is split around a sealed piece whatever the piece is. -/
theorem splitArithmetic_sealed (hpre : ScanState.start.run .all pre = .code 0)
    (hpiece : Sealed piece) (post : Text) :
    splitArithmetic (pre ++ piece ++ post) =
      (arithmeticSides pre post).map (Part.fillSides piece) := by
  have harrow : (topLevel (pre ++ piece ++ post)).any isArrow =
      ((topLevel pre).any isArrow || (topLevel post).any isArrow) := by
    obtain ⟨first, last, hfirst, hlast, hbehind, _, htop⟩ := topLevel_sealed hpre hpiece post
    have hextend : isArrow ∘ Spot.extend (piece ++ post) = isArrow :=
      funext (isArrow_extend hbehind)
    rw [htop, List.any_append, List.any_cons, List.any_cons, List.any_map, List.any_map, hextend,
      isArrow_delimiter first hfirst, isArrow_delimiter last hlast]
    rfl
  rw [splitArithmetic, arithmeticSides]
  simp only [harrow, operators_sealed hpre hpiece, loosest_map]
  split
  · rfl
  · cases loosest (operatorPlaces pre post) with
    | none => rfl
    | some found =>
      simp only [Option.map_some, Option.bind_some, Place.left_toSpot, Place.after_toSpot,
        Part.isEmpty_trim_fill hpiece]
      split <;> rfl

/-! ### Statements -/

theorem endsStatement_delimiter (spot : Spot) (h : spot.char ∈ delimiters) :
    endsStatement spot = false := by
  have := of_mem_delimiters (p := fun d => !(d == ';' || d == '/')) (by decide) h
  rw [Bool.not_eq_true', Bool.or_eq_false_iff] at this
  rw [endsStatement, this.1, this.2]
  rfl

theorem endsStatement_extend (hmore : Guarded more) (spot : Spot) :
    endsStatement (spot.extend more) = endsStatement spot := by
  have hhead : ((spot.extend more).after.head? == some '/') = (spot.after.head? == some '/') :=
    hmore.head?_append (by decide) spot.after
  rw [endsStatement, endsStatement, hhead, Spot.extend_char]

/-- The statement at the start of a text around a piece: it ends before the piece, or reaches
as far behind it as a statement that starts there. -/
def statementPart (pre post : Text) : Part :=
  if ((topLevel pre).find? endsStatement).isSome then .fixed (cutStatement pre)
  else .around pre (cutStatement post)

/-- A statement is cut around a sealed piece whatever the piece is. -/
theorem cutStatement_sealed (hpre : ScanState.start.run .all pre = .code 0)
    (hpiece : Sealed piece) (post : Text) :
    cutStatement (pre ++ piece ++ post) = (statementPart pre post).fill piece := by
  obtain ⟨first, last, hfirst, hlast, hbehind, _, htop⟩ := topLevel_sealed hpre hpiece post
  have hextend : endsStatement ∘ Spot.extend (piece ++ post) = endsStatement :=
    funext (endsStatement_extend hbehind)
  have hshift : endsStatement ∘ Spot.shift (pre ++ piece).reverse = endsStatement := rfl
  have htrim : ∀ t, Text.trimRight (pre ++ piece ++ t) = pre ++ piece ++ Text.trimRight t := by
    obtain ⟨first, body, last, _, hlast, rfl, _⟩ := hpiece.scanned.scan_eq
    intro t
    have hparts : ∀ rest, pre ++ first :: (body ++ [last]) ++ rest =
        pre ++ first :: body ++ last :: rest := by simp
    rw [hparts, Text.trimRight_append_cons (isBlank_of_mem_delimiters hlast), hparts]
  have hfind : (topLevel (pre ++ piece ++ post)).find? endsStatement =
      (((topLevel pre).find? endsStatement).map (Spot.extend (piece ++ post))).or
        (((topLevel post).find? endsStatement).map (Spot.shift (pre ++ piece).reverse)) := by
    rw [htop, List.find?_append, List.find?_cons, endsStatement_delimiter first hfirst,
      List.find?_cons, endsStatement_delimiter last hlast, List.find?_map, List.find?_map,
      hextend, hshift]
  rw [cutStatement, hfind, statementPart]
  cases hfront : (topLevel pre).find? endsStatement with
  | some spot =>
    rw [cutStatement, hfront]
    rfl
  | none =>
    have hback : (Part.around pre (cutStatement post)).fill piece =
        pre ++ piece ++ cutStatement post := rfl
    rw [Option.map_none, Option.none_or, Option.isSome_none, if_neg Bool.false_ne_true, hback,
      cutStatement]
    cases (topLevel post).find? endsStatement with
    | some spot =>
      simp only [Option.map_some]
      rw [Spot.left_shift, htrim]
    | none => exact htrim post

/-! ### Lists -/

variable {separator : Char} {state : ScanState} {s t b : Text} {after : List Text}

theorem exists_splitFrom_eq_cons (separator : Char) (state : ScanState) (t : Text) :
    ∃ b after, splitFrom separator state t = b :: after := by
  cases t with
  | nil => exact ⟨[], [], rfl⟩
  | cons c t =>
    rw [splitFrom]
    split
    · exact ⟨_, _, rfl⟩
    · split <;> exact ⟨_, _, rfl⟩

/-- The last piece of a text goes on with the first piece of what follows. -/
theorem splitFrom_append (separator : Char) (state : ScanState) (s : Text) :
    ∃ before a, ∀ t b after, splitFrom separator (state.run .all s) t = b :: after →
      splitFrom separator state (s ++ t) = before ++ (a ++ b) :: after := by
  induction s generalizing state with
  | nil => exact ⟨[], [], fun t b after h => h⟩
  | cons c s ih =>
    obtain ⟨before, a, hrest⟩ := ih (state.step .all c)
    by_cases hsplit : (state.shows .all c && c == separator) = true
    · refine ⟨[] :: before, a, fun t b after h => ?_⟩
      rw [List.cons_append, splitFrom, if_pos hsplit, hrest t b after h]
      rfl
    · cases before with
      | nil =>
        refine ⟨[], c :: a, fun t b after h => ?_⟩
        rw [List.cons_append, splitFrom, if_neg hsplit, hrest t b after h]
        rfl
      | cons first before =>
        refine ⟨(c :: first) :: before, a, fun t b after h => ?_⟩
        rw [List.cons_append, splitFrom, if_neg hsplit, hrest t b after h]
        rfl

/-- A text that shows no separator is the start of a piece. -/
theorem splitFrom_of_forall (before : List Char)
    (hs : ∀ spot ∈ scanFrom .all state before s, spot.char ≠ separator)
    (ht : splitFrom separator (state.run .all s) t = b :: after) :
    splitFrom separator state (s ++ t) = (s ++ b) :: after := by
  induction s generalizing state before with
  | nil => exact ht
  | cons c s ih =>
    have hsplit : ¬ (state.shows .all c && c == separator) = true := by
      intro hboth
      rw [Bool.and_eq_true, beq_iff_eq] at hboth
      rw [Text.scanFrom_cons_of_shows hboth.1] at hs
      exact hs _ List.mem_cons_self hboth.2
    have hrest : ∀ spot ∈ scanFrom .all (state.step .all c) (c :: before) s,
        spot.char ≠ separator := by
      intro spot hspot
      refine hs spot ?_
      rw [scanFrom]
      split
      · exact List.mem_cons_of_mem _ hspot
      · exact hspot
    rw [List.cons_append, splitFrom, if_neg hsplit, ih _ hrest ht]
    rfl

theorem splitTopLevel_of_forall (h : ∀ spot ∈ topLevel s, spot.char ≠ separator) :
    splitTopLevel separator s = [s] := by
  have hend : splitFrom separator (ScanState.start.run .all s) [] = [] :: [] := rfl
  have hsplit := splitFrom_of_forall [] h hend
  rwa [List.append_nil] at hsplit

/-- A sealed piece is the start of a piece between separators. -/
theorem splitFrom_sealed (hseparator : separator ∉ delimiters) (hpiece : Sealed piece)
    (ht : splitFrom separator (.code 0) t = b :: after) :
    splitFrom separator (.code 0) (piece ++ t) = (piece ++ b) :: after := by
  obtain ⟨first, body, last, hfirst, hlast, _, hscan⟩ := hpiece.scanned.scan_eq
  have hshown := hscan [] []
  rw [List.append_nil] at hshown
  refine splitFrom_of_forall [] ?_ (hpiece.scanned.run_eq.symm ▸ ht)
  intro spot hspot heq
  have hchar : spot.char ∈ delimiters := by
    rw [hshown] at hspot
    rcases List.mem_cons.1 hspot with rfl | hspot
    · exact hfirst
    · rcases List.mem_cons.1 hspot with rfl | hspot
      · exact hlast
      · cases hspot
  exact hseparator (heq ▸ hchar)

/-- A list is split around a sealed piece whatever the piece is: one of its parts has the
piece in it. -/
theorem splitTopLevel_sealed (hpre : ScanState.start.run .all pre = .code 0)
    (hseparator : separator ∉ delimiters) (post : Text) :
    ∃ before a b after, ∀ piece, Sealed piece →
      splitTopLevel separator (pre ++ piece ++ post) = before ++ (a ++ piece ++ b) :: after := by
  obtain ⟨before, a, happend⟩ := splitFrom_append separator .start pre
  obtain ⟨b, after, hpost⟩ := exists_splitFrom_eq_cons separator (.code 0) post
  refine ⟨before, a, b, after, fun piece hpiece => ?_⟩
  have hrest := splitFrom_sealed hseparator hpiece hpost
  rw [← hpre] at hrest
  rw [splitTopLevel, List.append_assoc, happend _ _ _ hrest, List.append_assoc]

/-! ### Replacement -/

/-- Literals and groups are sealed to everything that splits or cuts at the top level. Let a
scan of `pre` end outside literals and groups. What the first comparison, the arithmetic
operator, the end of the statement and the separators of `pre ++ piece ++ post` are, and of
which parts the results consist, is fixed by `pre` and `post`: replacing the piece by any
other literal or group replaces it in the parts, and changes nothing else. -/
theorem split_replacement (pre post : Text) (hpre : ScanState.start.run .all pre = .code 0) :
    (∃ sides : Option (Part × Comparison × Part), ∀ piece, Sealed piece →
        splitComparison (pre ++ piece ++ post) = sides.map (Part.fillSides piece)) ∧
      (∃ sides : Option (Part × Arithmetic × Part), ∀ piece, Sealed piece →
        splitArithmetic (pre ++ piece ++ post) = sides.map (Part.fillSides piece)) ∧
      (∃ part : Part, ∀ piece, Sealed piece →
        cutStatement (pre ++ piece ++ post) = part.fill piece) ∧
      ∀ separator ∉ delimiters, ∃ parts : List Part, ∀ piece, Sealed piece →
        splitTopLevel separator (pre ++ piece ++ post) = parts.map (Part.fill piece) := by
  refine ⟨⟨comparisonSides pre post, ?_⟩, ⟨arithmeticSides pre post, ?_⟩,
    ⟨statementPart pre post, ?_⟩, ?_⟩
  · exact fun piece hpiece => splitComparison_sealed hpre hpiece post
  · exact fun piece hpiece => splitArithmetic_sealed hpre hpiece post
  · exact fun piece hpiece => cutStatement_sealed hpre hpiece post
  · intro separator hseparator
    obtain ⟨before, a, b, after, hsplit⟩ := splitTopLevel_sealed hpre hseparator post
    refine ⟨before.map .fixed ++ .around a b :: after.map .fixed, fun piece hpiece => ?_⟩
    rw [hsplit piece hpiece]
    simp [Part.fill, Function.comp_def]

/-- A comparison behind a literal or a group is found, whatever comparison stands in these. -/
theorem split_replacement_operand :
    ∃ sides : Option (Part × Comparison × Part), sides.isSome = true ∧
      ∀ piece ∈ ["'=='".toList, "(<)".toList], Sealed piece ∧
        splitComparison ("a + ".toList ++ piece ++ " < b".toList) =
          sides.map (Part.fillSides piece) := by
  obtain ⟨⟨sides, hsides⟩, _⟩ := split_replacement "a + ".toList " < b".toList rfl
  have hliteral : Sealed "'=='".toList :=
    .literal (by decide) (.plain (by decide) (by decide) (.plain (by decide) (by decide) .nil))
  have hgroup : Sealed "(<)".toList := .group (by decide) (by decide) (.plain (by decide) .nil)
  refine ⟨sides, ?_, ?_⟩
  · have hsome := congrArg Option.isSome (hsides _ hgroup)
    rw [Option.isSome_map] at hsome
    rw [← hsome]
    decide
  · intro piece hpiece
    have hsealed : Sealed piece := by
      rcases List.mem_cons.1 hpiece with rfl | hpiece
      · exact hliteral
      · exact List.mem_singleton.1 hpiece ▸ hgroup
    exact ⟨hsealed, hsides piece hsealed⟩

end Stepwise.Expression
