import Stepwise.Proofs.Bytewise.Calls
import Stepwise.Proofs.Expression.Sides
import Stepwise.Proofs.Expression.Semantics

/-!
# Splitting expressions by byte positions

The contents of a literal are sliced between its first and its last byte, and an expression is
split at the byte position of an operator and at the position behind it. An operator is told apart
from a part of a longer token by slices of the text on either side of it, taken at every item of
the scan. All of them are slices between characters.

## Main definitions

* `Stepwise.Bytewise.stringLiteral`, `splitComparison`, `splitArithmetic` — the readers by byte
  positions.

## Main results

* `Stepwise.Bytewise.stringLiteral_eq`, `splitComparison_eq`, `splitArithmetic_eq` — no fault
  occurs, and the answer is that of the reader of characters.
* `Stepwise.Bytewise.readers_never_fault` — none of the readers by byte positions comes to a fault.
-/

namespace Stepwise.Bytewise

open Expression (comparisonAt? comparisonStarts isArrow isBinary isLiteralBody isOperatorChar
  loosest operators)
open Text (IsBoundary Spot StandsAt afterLead byteLength isBlank isQuote items startsWith
  topLevel)

variable {text : Text} {spot : Spot}

/-! ### Literals -/

/-- The contents of a text that is one string literal. -/
def stringLiteral (text : Text) : Checked (Option Text) := do
  match text with
  | [] => return none
  | quote :: rest =>
    if !isQuote quote || byteLength (quote :: rest) < 2 ||
        (quote :: rest).getLast? != some quote then return none
    else
      let stop ← minus (byteLength (quote :: rest)) 1
      let inner ← slice (quote :: rest) 1 stop
      return if isLiteralBody quote inner then some inner else none

theorem utf8Size_of_isQuote {c : Char} (h : isQuote c = true) : c.utf8Size = 1 := by
  rcases Text.isQuote_iff.1 h with rfl | rfl | rfl <;> rfl

theorem stringLiteral_eq (text : Text) :
    stringLiteral text = .ok (Expression.stringLiteral? text) := by
  cases text with
  | nil => rfl
  | cons quote rest =>
    rw [stringLiteral, Expression.stringLiteral?]
    cases hquote : isQuote quote with
    | false => rfl
    | true =>
      have hsize := utf8Size_of_isQuote hquote
      rcases List.eq_nil_or_concat' rest with rfl | ⟨inner, last, rfl⟩
      · simp only [Text.byteLength_cons, hsize]
        rfl
      have hgetLast : (quote :: (inner ++ [last])).getLast? = some last := by
        rw [← List.cons_append, List.getLast?_concat]
      rw [hgetLast, List.getLast?_concat, List.dropLast_concat]
      by_cases hlast : last = quote
      · subst hlast
        have hlength : byteLength (last :: (inner ++ [last])) = 1 + byteLength inner + 1 := by
          rw [Text.byteLength_cons, Text.byteLength_append, Text.byteLength_cons,
            Text.byteLength_nil, hsize]
          omega
        have hminus : minus (byteLength (last :: (inner ++ [last]))) 1 =
            .ok (1 + byteLength inner) := by
          rw [minus, hlength, if_pos (by omega), Nat.add_sub_cancel]
        have hslice : slice (last :: (inner ++ [last])) 1 (1 + byteLength inner) = .ok inner :=
          slice_eq_ok_iff.2 ⟨[last], [last], rfl, by simp [hsize], by simp [hsize]⟩
        have hlong : decide (byteLength (last :: (inner ++ [last])) < 2) = false := by
          rw [hlength, decide_eq_false_iff_not]
          omega
        simp only [hlong, hminus, hslice, ok_bind, bne_self_eq_false, beq_self_eq_true,
          Bool.not_true, Bool.or_self, Bool.and_self, Bool.true_and, Bool.false_eq_true, if_false]
        rfl
      · have hbeq : (some last == some quote) = false := by simpa using hlast
        have hbne : (some last != some quote) = true := by simpa using hlast
        simp only [hbeq, hbne, Bool.or_true, Bool.and_false, Bool.false_and, Bool.false_eq_true,
          if_true, if_false]
        rfl

/-! ### Comparisons -/

/-- Whether a comparison from `place` up to `stop` that is a single character belongs to a shift or
to an arrow. -/
def isJoined (text : Text) (op : Comparison) (place stop : Nat) (c : Char) : Checked Bool :=
  if op.isBare then do
    let before ← sliceTo text place
    let after ← sliceFrom text stop
    return before.getLast? == some '=' || before.getLast? == some c || after.head? == some c
  else return false

/-- The comparison at an item and its two sides. -/
def comparisonAt (text : Text) (item : Nat × Char) :
    Checked (Option (Text × Comparison × Text)) := do
  if comparisonStarts.contains item.2 then
    let rest ← sliceFrom text item.1
    match Comparison.all.find? fun op => startsWith op.symbol rest with
    | none => return none
    | some op =>
      let stop := item.1 + byteLength op.symbol
      if ← isJoined text op item.1 stop item.2 then return none
      else
        let left ← sliceTo text item.1
        let right ← sliceFrom text stop
        return some (left, op, right)
  else return none

/-- The first comparison at the top level and its two sides. -/
def splitComparison (text : Text) : Checked (Option (Text × Comparison × Text)) := do
  (← shownItems text).findSomeM? (comparisonAt text)

theorem findSome?_eq_bind_find? {α β : Type} (f : α → Option β) (l : List α) :
    l.findSome? f = (l.find? fun a => (f a).isSome).bind f := by
  induction l with
  | nil => rfl
  | cons a l ih =>
    rw [List.findSome?_cons, List.find?_cons]
    cases h : f a with
    | some b => simp [h]
    | none => simpa using ih

theorem findSomeM?_map_eq_ok {α β γ : Type} {f : α → β} {test : β → Checked (Option γ)}
    {g : α → Option γ} {l : List α} (h : ∀ a ∈ l, test (f a) = .ok (g a)) :
    (l.map f).findSomeM? test = .ok (l.findSome? g) := by
  induction l with
  | nil => rfl
  | cons a l ih =>
    rw [List.map_cons, List.findSomeM?, h a List.mem_cons_self, ok_bind, List.findSome?_cons]
    cases g a with
    | some b => rfl
    | none => exact ih fun b hb => h b (List.mem_cons_of_mem a hb)

theorem leading?_eq (text : Text) :
    Comparison.leading? text =
      (Comparison.all.find? fun op => startsWith op.symbol text).bind fun op =>
        (afterLead op.symbol text).map (op, ·) := by
  rw [Comparison.leading?, findSome?_eq_bind_find?]
  simp only [Option.isSome_map]
  rfl

/-- Behind a part of the text that a spot starts, the text is sliced. -/
theorem sliceFrom_behind {s t : Text} (h : spot ∈ topLevel text) (hrest : spot.rest = s ++ t) :
    sliceFrom text (spot.offset + byteLength s) = .ok t := by
  have hslice := sliceFrom_append (spot.left ++ s) t
  rw [Text.byteLength_append, Spot.left, Text.byteLength_reverse, List.append_assoc, ← hrest]
    at hslice
  rw [← Text.text_of_mem_topLevel h]
  exact hslice

theorem getLast?_left (spot : Spot) : spot.left.getLast? = spot.before.head? :=
  List.getLast?_reverse

theorem comparisonAt_eq (h : spot ∈ topLevel text) :
    comparisonAt text (spot.offset, spot.char) =
      .ok ((comparisonAt? spot).map fun (op, right) => (spot.left, op, right)) := by
  have hto := sliceTo_of_mem_topLevel h
  have hfrom := sliceFrom_of_mem_topLevel h
  rw [comparisonAt]
  by_cases hstart : spot.char ∈ comparisonStarts
  · rw [if_pos (by simpa using hstart), comparisonAt?, leading?_eq]
    simp only [hfrom, ok_bind]
    cases hop : Comparison.all.find? fun op => startsWith op.symbol spot.rest with
    | none => rfl
    | some op =>
      have hstarts : startsWith op.symbol spot.rest = true := by
        simpa using List.find?_some hop
      obtain ⟨right, hlead⟩ := Option.isSome_iff_exists.1 hstarts
      have hright := sliceFrom_behind h (Text.afterLead_eq_some_iff.1 hlead)
      simp only [isJoined, hto, hright, ok_bind, getLast?_left, Option.bind_some, hlead,
        Option.map_some, Option.filter_some]
      cases op.isBare with
      | false => rfl
      | true =>
        cases spot.before.head? == some '=' || spot.before.head? == some spot.char ||
          right.head? == some spot.char <;> rfl
  · rw [if_neg (by simpa using hstart), Expression.comparisonAt?_eq_none hstart]
    rfl

theorem splitComparison_eq (text : Text) :
    splitComparison text = .ok (Expression.splitComparison text) := by
  rw [splitComparison, shownItems_eq, ok_bind]
  exact findSomeM?_map_eq_ok fun _ hspot => comparisonAt_eq hspot

/-! ### Arithmetic -/

/-- Whether an arrow starts at an item. -/
def startsArrow (text : Text) (item : Nat × Char) : Checked Bool :=
  if item.2 = '=' then do
    let rest ← sliceFrom text item.1
    return startsWith "=>".toList rest
  else return false

/-- The operator with two operands at an item, where `previous` is the last item that is not
blank. -/
def operatorAt (text : Text) (previous : Option Char) (item : Nat × Char) :
    Checked (Option Arithmetic) := do
  let before ← sliceTo text item.1
  let after ← sliceFrom text (item.1 + item.2.utf8Size)
  match Arithmetic.ofChar? item.2 with
  | none => return none
  | some op =>
    let doubled := before.getLast? == some item.2 || after.head? == some item.2
    let compound := after.head? == some '='
    let sign := op.isAdditive && previous.all isOperatorChar
    return if !doubled && !compound && !sign then some op else none

/-- The operator at which an expression is split, with its byte position. Of the operators before
the items, `additive` and `multiplicative` are the last ones of either kind. -/
def loosestFrom (text : Text) (additive multiplicative : Option (Arithmetic × Nat))
    (previous : Option Char) : List (Nat × Char) → Checked (Option (Arithmetic × Nat))
  | [] => return additive.or multiplicative
  | (place, c) :: others =>
    if isBlank c then loosestFrom text additive multiplicative previous others
    else do
      if ← startsArrow text (place, c) then return none
      else
        match ← operatorAt text previous (place, c) with
        | none => loosestFrom text additive multiplicative (some c) others
        | some op =>
          if op.isAdditive then
            loosestFrom text (some (op, place)) multiplicative (some c) others
          else loosestFrom text additive (some (op, place)) (some c) others

/-- The arithmetic operator at which a text is split and its two sides. -/
def splitArithmetic (text : Text) : Checked (Option (Text × Arithmetic × Text)) := do
  match ← loosestFrom text none none none (← shownItems text) with
  | none => return none
  | some (op, place) =>
    let left ← sliceTo text place
    let right ← sliceFrom text (place + 1)
    return if left.trim.isEmpty || right.trim.isEmpty then none else some (left, op, right)

theorem startsArrow_eq (h : spot ∈ topLevel text) :
    startsArrow text (spot.offset, spot.char) = .ok (isArrow spot) := by
  rw [startsArrow, sliceFrom_of_mem_topLevel h]
  by_cases hequals : spot.char = '='
  · have hrest : startsWith "=>".toList spot.rest = isArrow spot := by
      rw [Spot.rest, isArrow, hequals]
      exact startsWith_pair '=' '>' spot.after
    simp only [hequals, if_true, ok_bind]
    exact congrArg Except.ok hrest
  · have hfree : isArrow spot = false := by simp [isArrow, hequals]
    simp only [hequals, if_false, hfree]
    rfl

theorem sliceFrom_after (h : spot ∈ topLevel text) :
    sliceFrom text (spot.offset + spot.char.utf8Size) = .ok spot.after := by
  have hslice := sliceFrom_behind h (show spot.rest = [spot.char] ++ spot.after from rfl)
  rwa [Text.byteLength_cons, Text.byteLength_nil, Nat.add_zero] at hslice

theorem operatorAt_eq (h : spot ∈ topLevel text) (previous : Option Char) :
    operatorAt text previous (spot.offset, spot.char) =
      .ok ((Arithmetic.ofChar? spot.char).filter fun op => isBinary op previous spot) := by
  simp only [operatorAt, sliceTo_of_mem_topLevel h, sliceFrom_after h, ok_bind, getLast?_left]
  cases Arithmetic.ofChar? spot.char with
  | none => rfl
  | some op =>
    rw [Option.filter_some]
    rfl

/-! ### The loosest operator -/

/-- The operator that is settled on behind some found ones, if `additive` and `multiplicative` are
the last ones of either kind before them. -/
def settle {α : Type} (found : List (Arithmetic × α))
    (additive multiplicative : Option (Arithmetic × α)) : Option (Arithmetic × α) :=
  (((found.filter fun f => f.1.isAdditive).getLast?).or additive).or
    (((found.filter fun f => !f.1.isAdditive).getLast?).or multiplicative)

theorem getLast?_cons_or {α : Type} (a : α) (l : List α) (previous : Option α) :
    (a :: l).getLast?.or previous = l.getLast?.or (some a) := by
  rw [List.getLast?_cons]
  cases l.getLast? <;> rfl

section Settle

variable {α : Type} {f : Arithmetic × α} (found : List (Arithmetic × α))
  (additive multiplicative : Option (Arithmetic × α))

theorem settle_cons_additive (h : f.1.isAdditive = true) :
    settle (f :: found) additive multiplicative = settle found (some f) multiplicative := by
  simp only [settle, List.filter_cons, h, if_true, Bool.not_true, Bool.false_eq_true, if_false,
    getLast?_cons_or]

theorem settle_cons_multiplicative (h : f.1.isAdditive = false) :
    settle (f :: found) additive multiplicative = settle found additive (some f) := by
  simp only [settle, List.filter_cons, h, if_true, Bool.not_false, Bool.false_eq_true, if_false,
    getLast?_cons_or]

/-- From the start the loosest operator is settled on. -/
theorem settle_none : settle found none none = loosest found := by
  rw [settle, Option.or_none, Option.or_none, loosest]
  cases hlast : (found.filter fun f => f.1.isAdditive).getLast? with
  | some f => rfl
  | none =>
    have hfree : found.filter (fun f => !f.1.isAdditive) = found := by
      rw [List.getLast?_eq_none_iff, List.filter_eq_nil_iff] at hlast
      rw [List.filter_eq_self]
      intro f hf
      simpa using hlast f hf
    rw [hfree]

end Settle

/-- The byte position of a found operator. -/
def place (f : Arithmetic × Spot) : Arithmetic × Nat :=
  (f.1, f.2.offset)

/-- The search comes to no fault, and it settles on what the operators at the spots give. -/
theorem loosestFrom_eq {spots : List Spot} (h : ∀ spot ∈ spots, spot ∈ topLevel text)
    (additive multiplicative : Option (Arithmetic × Spot)) (previous : Option Char) :
    loosestFrom text (additive.map place) (multiplicative.map place) previous
        (spots.map fun spot => (spot.offset, spot.char)) =
      .ok (if spots.any isArrow then none
        else (settle (operators previous spots) additive multiplicative).map place) := by
  induction spots generalizing additive multiplicative previous with
  | nil => cases additive <;> rfl
  | cons spot spots ih =>
    have hspot := h spot List.mem_cons_self
    have hnext := ih fun other hother => h other (List.mem_cons_of_mem spot hother)
    rw [List.map_cons, loosestFrom, List.any_cons, operators]
    by_cases hblank : isBlank spot.char = true
    · have hfree : isArrow spot = false := by
        have hne : spot.char ≠ '=' := by
          intro hequals
          rw [hequals] at hblank
          exact absurd hblank (by decide)
        simp [isArrow, hne]
      rw [if_pos hblank, if_pos hblank, hfree, hnext]
      rfl
    rw [if_neg hblank, if_neg hblank, startsArrow_eq hspot, ok_bind]
    cases isArrow spot with
    | true => rfl
    | false =>
      simp only [Bool.false_eq_true, if_false, Bool.false_or, operatorAt_eq hspot, ok_bind]
      cases hop : Arithmetic.ofChar? spot.char with
      | none => exact hnext additive multiplicative (some spot.char)
      | some op =>
        rw [Option.filter_some]
        by_cases hbinary : isBinary op previous spot = true
        · simp only [hbinary, if_true]
          cases hadditive : op.isAdditive with
          | true =>
            rw [settle_cons_additive _ _ _ hadditive]
            exact hnext (some (op, spot)) multiplicative (some spot.char)
          | false =>
            rw [settle_cons_multiplicative _ _ _ hadditive]
            exact hnext additive (some (op, spot)) (some spot.char)
        · simp only [hbinary, Bool.false_eq_true, if_false]
          exact hnext additive multiplicative (some spot.char)

theorem splitArithmetic_eq (text : Text) :
    splitArithmetic text = .ok (Expression.splitArithmetic text) := by
  have hsearch : loosestFrom text none none none (items text) =
      .ok (if (topLevel text).any isArrow then none
        else (loosest (operators none (topLevel text))).map place) := by
    rw [← settle_none]
    exact loosestFrom_eq (fun _ hspot => hspot) none none none
  rw [splitArithmetic, shownItems_eq, ok_bind, hsearch, ok_bind, Expression.splitArithmetic]
  by_cases harrow : (topLevel text).any isArrow = true
  · simp only [harrow, if_true]
    rfl
  simp only [harrow, Bool.false_eq_true, if_false]
  cases hloosest : loosest (operators none (topLevel text)) with
  | none => rfl
  | some found =>
    obtain ⟨op, spot⟩ := found
    obtain ⟨hspot, hchar⟩ :=
      Expression.mem_of_mem_operators (Expression.mem_of_loosest hloosest)
    have hsize : spot.char.utf8Size = 1 := by
      rw [hchar]
      cases op <;> rfl
    have hafter := sliceFrom_after hspot
    rw [hsize] at hafter
    simp only [Option.map_some, place, sliceTo_of_mem_topLevel hspot, hafter, ok_bind]
    rfl

/-! ### No reader comes to a fault -/

/-- A parenthesis is closed by one that stands behind it. -/
theorem standsAt_of_matchingParen {opening close : Nat} (h : IsBoundary text opening)
    (hclose : Text.matchingParen text opening = some close) :
    opening < close ∧ StandsAt text close ')' := by
  obtain ⟨s, t, rfl, rfl⟩ := h
  obtain ⟨t, rfl⟩ : ∃ rest, t = '(' :: rest := by
    rw [Text.matchingParen, Expression.dropBytes_byteLength] at hclose
    cases t with
    | nil => cases hclose
    | cons c t =>
      by_cases hc : c = '('
      · exact ⟨t, by rw [hc]⟩
      · rw [closingSpot?_eq_none hc] at hclose
        cases hclose
  obtain ⟨inner, rest, rfl, -, rfl⟩ := Expression.matchingParen_eq_some_iff.1 hclose
  have hsize : '('.utf8Size = 1 := rfl
  refine ⟨by omega, s ++ '(' :: inner, rest, by simp, ?_⟩
  rw [Text.byteLength_append, Text.byteLength_cons, hsize]

/-- No reader comes to a fault, whatever the text. A slice is a fault unless its ends lie between
characters, the start not behind the end, and a subtraction is one if it leads below zero. The scan
shows characters at increasing positions, each at the one where it stands; the search for a closing
parenthesis from any boundary on ends at one that stands behind it; and all readers that cut words,
pieces, statements, groups, arguments, names, literals and operands out of the text by byte
positions give what the readers of characters give. -/
theorem readers_never_fault (text : Text) :
    (∀ start stop, (∃ part, slice text start stop = .ok part) ↔
      start ≤ stop ∧ IsBoundary text start ∧ IsBoundary text stop) ∧
    (shownItems text = .ok (items text) ∧
      ((items text).Pairwise fun a b => a.1 < b.1) ∧
      ∀ item ∈ items text, IsBoundary text item.1 ∧ StandsAt text item.1 item.2) ∧
    (∀ opening, IsBoundary text opening →
      matchingParen text opening = .ok (Text.matchingParen text opening) ∧
      ∀ close, Text.matchingParen text opening = some close →
        opening < close ∧ StandsAt text close ')') ∧
    leadingWord text = .ok (Text.leadingWord text) ∧
    (∀ separator, splitTopLevel separator text = .ok (Text.splitTopLevel separator text)) ∧
    cutStatement text = .ok (Text.cutStatement text) ∧
    firstParenGroup text = .ok (Text.firstParenGroup text) ∧
    outputArguments text = .ok (Line.outputArguments? text) ∧
    callName text = .ok (Line.callName? text) ∧
    stringLiteral text = .ok (Expression.stringLiteral? text) ∧
    splitComparison text = .ok (Expression.splitComparison text) ∧
    splitArithmetic text = .ok (Expression.splitArithmetic text) := by
  refine ⟨fun start stop => exists_slice_iff, ⟨shownItems_eq text, Text.pairwise_items text, ?_⟩,
    ?_, leadingWord_eq text, fun separator => splitTopLevel_eq separator text,
    cutStatement_eq text, firstParenGroup_eq text, outputArguments_eq text, callName_eq text,
    stringLiteral_eq text, splitComparison_eq text, splitArithmetic_eq text⟩
  · intro item hitem
    have hstands := Text.standsAt_of_mem_items hitem
    exact ⟨hstands.isBoundary, hstands⟩
  · intro opening hopening
    exact ⟨matchingParen_eq hopening, fun close hclose => standsAt_of_matchingParen hopening hclose⟩

/-- An output call among characters of two and three bytes. Its parenthesis is not closed, since
the one in the literal does not count, so the end of the arguments is searched for from behind. A
slice that starts inside the first character would be a fault. -/
theorem readers_never_fault_unclosed :
    let text := "é = console.log('ß)', f(→);".toList
    (IsBoundary text 16 ∧ matchingParen text 16 = .ok none) ∧
      (IsBoundary text 25 ∧ matchingParen text 25 = .ok (some 29) ∧ StandsAt text 29 ')') ∧
      outputArguments text = .ok (some "'ß)', f(→".toList) ∧
      callName text = .ok (some "log".toList) ∧
      slice text 1 16 = .error .slice := by
  intro text
  obtain ⟨-, -, hmatching, -, -, -, -, harguments, hname, -⟩ := readers_never_fault text
  have hlog : IsBoundary text 16 :=
    ⟨"é = console.log".toList, "('ß)', f(→);".toList, by decide, by decide⟩
  have hf : IsBoundary text 25 :=
    ⟨"é = console.log('ß)', f".toList, "(→);".toList, by decide, by decide⟩
  have hnone : Text.matchingParen text 16 = none := by decide
  have hsome : Text.matchingParen text 25 = some 29 := by decide
  refine ⟨⟨hlog, ?_⟩, ⟨hf, ?_, ((hmatching 25 hf).2 29 hsome).2⟩, ?_, ?_, ?_⟩
  · rw [(hmatching 16 hlog).1, hnone]
  · rw [(hmatching 25 hf).1, hsome]
  · rw [harguments]
    decide
  · rw [hname]
    decide
  · decide

end Stepwise.Bytewise
