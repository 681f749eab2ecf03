import Stepwise.Proofs.Bytewise.Slices
import Stepwise.Proofs.Expression.Pieces

/-!
# Scanning by byte positions

Words, pieces, statements and groups are also cut out by byte positions: a position is searched
for, and the text is sliced there. The positions come from searches of different kinds and are
moved on by the sizes of characters, so each slice is one more occasion for a fault. None occurs,
and the slices are the parts that the readers of characters give.

## Main definitions

* `Stepwise.Bytewise.shownItems` — the scan of the top level by byte positions.
* `Stepwise.Bytewise.leadingWord`, `splitTopLevel`, `cutStatement`, `matchingParen`,
  `firstParenGroup` — the readers by byte positions.

## Main results

* `Stepwise.Bytewise.shownItems_eq` — the scan comes to no fault.
* `Stepwise.Bytewise.leadingWord_eq`, `splitTopLevel_eq`, `cutStatement_eq`, `matchingParen_eq`,
  `firstParenGroup_eq` — no fault occurs, and the answer is that of the reader of characters.
-/

namespace Stepwise.Bytewise

open Text (Brackets ScanState Spot byteLength isQuote isWordChar items scanFrom startsWith
  topLevel trimRight)

variable {text s t : Text} {c : Char}

/-! ### Words -/

/-- The longest word at the start of a text, and what follows it. -/
def leadingWord (text : Text) : Checked (Option (Text × Text)) := do
  let stop := (find? (fun c => !isWordChar c) text).getD (byteLength text)
  if stop = 0 then return none
  let word ← sliceTo text stop
  let rest ← sliceFrom text stop
  return some (word, rest)

/-- The first character outside a class stands behind all leading characters in it. -/
theorem find?_not_getD (p : Char → Bool) (text : Text) :
    (find? (fun c => !p c) text).getD (byteLength text) = byteLength (text.takeWhile p) := by
  have hsplit := List.takeWhile_append_dropWhile (p := p) (l := text)
  have hfront : ∀ d ∈ text.takeWhile p, (!p d) = false := by
    intro d hd
    rw [List.mem_takeWhile_imp hd]
    rfl
  cases hrest : text.dropWhile p with
  | nil =>
    rw [hrest, List.append_nil] at hsplit
    rw [hsplit] at hfront ⊢
    rw [find?_eq_none hfront]
    rfl
  | cons c rest =>
    have hc : (!p c) = true := by
      rw [Text.eq_false_of_dropWhile_eq_cons hrest]
      rfl
    rw [hrest] at hsplit
    have hfind := find?_append_cons hfront hc rest
    rw [hsplit] at hfind
    rw [hfind]
    rfl

theorem leadingWord_eq (text : Text) : leadingWord text = .ok (Text.leadingWord text) := by
  have hsplit := List.takeWhile_append_dropWhile (p := isWordChar) (l := text)
  have hto := sliceTo_append (text.takeWhile isWordChar) (text.dropWhile isWordChar)
  have hfrom := sliceFrom_append (text.takeWhile isWordChar) (text.dropWhile isWordChar)
  rw [hsplit] at hto hfrom
  rw [leadingWord, find?_not_getD, Text.leadingWord]
  cases hword : text.takeWhile isWordChar with
  | nil => rfl
  | cons c word =>
    rw [hword] at hto hfrom
    have hpos := Text.byteLength_cons_pos c word
    rw [if_neg (by omega), hto, hfrom]
    rfl

/-! ### The top level -/

/-- Puts an item before others if it is shown. -/
def showing (shows : Bool) (item : Nat × Char) (rest : Checked (List (Nat × Char))) :
    Checked (List (Nat × Char)) := do
  let others ← rest
  return if shows then item :: others else others

theorem showing_false (item : Nat × Char) (rest : Checked (List (Nat × Char))) :
    showing false item rest = rest := by
  cases rest <;> rfl

/-- The items among some characters that are shown when `depth` groups are open and a literal of
`quote` is, or none. -/
def shownFrom (depth : Nat) (quote : Option Char) (escaped : Bool) :
    List (Nat × Char) → Checked (List (Nat × Char))
  | [] => return []
  | (place, c) :: rest =>
    match quote with
    | some mark =>
      if escaped then shownFrom depth (some mark) false rest
      else if c = '\\' then shownFrom depth (some mark) true rest
      else if c = mark then showing (depth == 0) (place, c) (shownFrom depth none false rest)
      else shownFrom depth (some mark) false rest
    | none =>
      if isQuote c then showing (depth == 0) (place, c) (shownFrom depth (some c) false rest)
      else if Brackets.all.opens c then
        showing (depth + 1 == 1) (place, c) (shownFrom (depth + 1) none false rest)
      else if Brackets.all.closes c then
        -- A bracket that closes nothing stays at the top level.
        if depth = 0 then showing true (place, c) (shownFrom depth none false rest)
        else do
          let depth ← minus depth 1
          showing (depth == 0) (place, c) (shownFrom depth none false rest)
      else showing (depth == 0) (place, c) (shownFrom depth none false rest)

/-- The characters of the top level with their byte positions. -/
def shownItems (text : Text) : Checked (List (Nat × Char)) :=
  shownFrom 0 none false (indices text)

/-- The items as they are shown from a state of the scan on. -/
def shownIn : ScanState → List (Nat × Char) → Checked (List (Nat × Char))
  | .code depth => shownFrom depth none false
  | .literal depth quote escaped => shownFrom depth (some quote) escaped

theorem indicesFrom_cons (c : Char) (before : List Char) (t : Text) :
    indicesFrom (byteLength before) (c :: t) =
      (byteLength before, c) :: indicesFrom (byteLength (c :: before)) t := by
  rw [indicesFrom, Text.byteLength_cons, Nat.add_comm]

/-- One step shows what the scan shows, and goes on in its next state. -/
theorem shownIn_cons {state : ScanState} (h : Expression.OpenedByQuote state) (place : Nat)
    (c : Char) (rest : List (Nat × Char)) :
    shownIn state ((place, c) :: rest) =
      showing (state.shows .all c) (place, c) (shownIn (state.step .all c) rest) := by
  cases state with
  | code depth =>
    by_cases hquote : isQuote c = true
    · have hcloses : Brackets.all.closes c = false := by
        rcases Text.isQuote_iff.1 hquote with rfl | rfl | rfl <;> rfl
      simp [shownIn, shownFrom, ScanState.step, ScanState.shows, hquote, hcloses]
    by_cases hopens : Brackets.all.opens c = true
    · have hcloses : Brackets.all.closes c = false := by
        rcases Expression.opens_iff.1 hopens with rfl | rfl | rfl <;> rfl
      simp [shownIn, shownFrom, ScanState.step, ScanState.shows, hquote, hopens, hcloses]
    by_cases hcloses : Brackets.all.closes c = true
    · cases depth <;>
        simp [shownIn, shownFrom, ScanState.step, ScanState.shows, hquote, hopens, hcloses, minus]
    · simp [shownIn, shownFrom, ScanState.step, ScanState.shows, hquote, hopens, hcloses]
  | literal depth quote escaped =>
    have hslash : quote ≠ '\\' := Expression.ne_backslash_of_isQuote h
    cases escaped with
    | true => simp [shownIn, shownFrom, ScanState.step, ScanState.shows, showing_false]
    | false =>
      by_cases hescape : c = '\\'
      · rw [Expression.shows_literal_of_ne (hescape ▸ Ne.symm hslash), showing_false]
        simp [shownIn, shownFrom, ScanState.step, hescape]
      by_cases hquote : c = quote
      · simp [shownIn, shownFrom, ScanState.step, ScanState.shows, hquote, hslash]
      · rw [Expression.shows_literal_of_ne hquote, showing_false]
        simp [shownIn, shownFrom, ScanState.step, hescape, hquote]

theorem shownIn_eq {state : ScanState} (h : Expression.OpenedByQuote state)
    (before : List Char) (t : Text) :
    shownIn state (indicesFrom (byteLength before) t) =
      .ok ((scanFrom .all state before t).map fun spot => (spot.offset, spot.char)) := by
  induction t generalizing state before with
  | nil => cases state <;> rfl
  | cons c t ih =>
    rw [indicesFrom_cons, shownIn_cons h, ih (h.step c) (c :: before), scanFrom]
    cases state.shows .all c <;> rfl

/-- The scan comes to no fault. -/
theorem shownItems_eq (text : Text) : shownItems text = .ok (items text) :=
  shownIn_eq (show Expression.OpenedByQuote .start from trivial) [] text

/-! ### Pieces -/

/-- The pieces of a text from a byte position on, at the separators among some items. -/
def splitFrom (text : Text) (separator : Char) (start : Nat) :
    List (Nat × Char) → Checked (List Text)
  | [] => do
    let piece ← sliceFrom text start
    return [piece]
  | (place, c) :: others =>
    if c = separator then do
      let piece ← slice text start place
      let pieces ← splitFrom text separator (place + c.utf8Size) others
      return piece :: pieces
    else splitFrom text separator start others

/-- The pieces of a text between the separators at the top level. -/
def splitTopLevel (separator : Char) (text : Text) : Checked (List Text) := do
  splitFrom text separator 0 (← shownItems text)

/-- What is sliced from the start of a piece on: `s` stands before the piece, `u` is what has been
passed of it, and `t` is to come. -/
theorem splitFrom_eq {separator : Char} {state : ScanState} {before : List Char} {u first : Text}
    {others : List Text} (htext : text = s ++ (u ++ t)) (hbefore : before = (s ++ u).reverse)
    (h : Text.splitFrom separator state t = first :: others) :
    splitFrom text separator (byteLength s)
        ((scanFrom .all state before t).map fun spot => (spot.offset, spot.char)) =
      .ok ((u ++ first) :: others) := by
  induction t generalizing state before s u first others with
  | nil =>
    cases h
    rw [scanFrom, List.map_nil, splitFrom, htext, sliceFrom_append]
    rfl
  | cons c t ih =>
    obtain ⟨piece, pieces, hrest⟩ :=
      Expression.exists_splitFrom_eq_cons separator (state.step .all c) t
    by_cases hsplits : (state.shows .all c && c == separator) = true
    · rw [Expression.splitFrom_cons_of_splits hsplits, hrest] at h
      cases h
      rw [Bool.and_eq_true, beq_iff_eq] at hsplits
      obtain ⟨hshows, rfl⟩ := hsplits
      have hplace : byteLength before = byteLength s + byteLength u := by
        rw [hbefore, Text.byteLength_reverse, Text.byteLength_append]
      have hpiece : slice text (byteLength s) (byteLength before) = .ok u :=
        slice_eq_ok_iff.2 ⟨s, c :: t, htext, rfl, hplace⟩
      have hstart : byteLength before + c.utf8Size = byteLength (s ++ (u ++ [c])) := by
        simp [hplace, Nat.add_assoc]
      have hpassed : c :: before = (s ++ (u ++ [c]) ++ []).reverse := by simp [hbefore]
      have hnext := ih (by simp [htext]) hpassed hrest
      rw [Text.scanFrom_cons_of_shows hshows, List.map_cons, splitFrom, if_pos rfl, Spot.offset,
        hpiece, hstart, hnext]
      simp
    · rw [Expression.splitFrom_cons_of_not_splits hsplits hrest] at h
      cases h
      have hpassed : c :: before = (s ++ (u ++ [c])).reverse := by simp [hbefore]
      have hnext := ih (by simp [htext]) hpassed hrest
      rw [List.append_assoc, List.singleton_append] at hnext
      cases hshows : state.shows .all c with
      | true =>
        have hne : c ≠ separator := by simpa [hshows] using hsplits
        rw [Text.scanFrom_cons_of_shows hshows, List.map_cons, splitFrom, if_neg hne, hnext]
      | false => rw [Text.scanFrom_cons_of_not_shows hshows, hnext]

theorem splitTopLevel_eq (separator : Char) (text : Text) :
    splitTopLevel separator text = .ok (Text.splitTopLevel separator text) := by
  obtain ⟨first, others, hsplit⟩ := Expression.exists_splitFrom_eq_cons separator .start text
  rw [splitTopLevel, shownItems_eq, ok_bind, Text.splitTopLevel, hsplit]
  exact splitFrom_eq (s := []) (u := []) rfl rfl hsplit

/-! ### Statements -/

/-- Whether a statement ends at an item. -/
def endsAt (text : Text) (item : Nat × Char) : Checked Bool :=
  if item.2 = ';' then return true
  else if item.2 = '/' then do
    let rest ← sliceFrom text item.1
    return startsWith "//".toList rest
  else return false

/-- The statement at the start of a line. -/
def cutStatement (text : Text) : Checked Text := do
  let found ← (← shownItems text).findM? (endsAt text)
  let statement ← sliceTo text (found.elim (byteLength text) Prod.fst)
  return trimRight statement

/-- A search whose tests come to no fault is a search with their answers. -/
theorem findM?_map_eq_ok {α β : Type} {f : α → β} {test : β → Checked Bool} {p : α → Bool}
    {l : List α} (h : ∀ a ∈ l, test (f a) = .ok (p a)) :
    (l.map f).findM? test = .ok ((l.find? p).map f) := by
  induction l with
  | nil => rfl
  | cons a l ih =>
    rw [List.map_cons, List.findM?, h a List.mem_cons_self, ok_bind, List.find?_cons]
    cases p a with
    | true => rfl
    | false => exact ih fun b hb => h b (List.mem_cons_of_mem a hb)

theorem sliceFrom_of_mem_topLevel {spot : Spot} (h : spot ∈ topLevel text) :
    sliceFrom text spot.offset = .ok spot.rest := by
  have hslice := sliceFrom_append spot.left spot.rest
  rw [Spot.left, Text.byteLength_reverse] at hslice
  rwa [← Text.text_of_mem_topLevel h]

theorem sliceTo_of_mem_topLevel {spot : Spot} (h : spot ∈ topLevel text) :
    sliceTo text spot.offset = .ok spot.left := by
  have hslice := sliceTo_append spot.left spot.rest
  rw [Spot.left, Text.byteLength_reverse] at hslice
  rwa [← Text.text_of_mem_topLevel h]

theorem startsWith_pair (c d : Char) (t : Text) :
    startsWith [c, d] (c :: t) = (t.head? == some d) := by
  cases t with
  | nil => simp [startsWith, Text.afterLead]
  | cons e t =>
    by_cases he : e = d
    · simp [startsWith, Text.afterLead, he]
    · simp [startsWith, Text.afterLead, he, Ne.symm he]

theorem endsAt_eq {spot : Spot} (h : spot ∈ topLevel text) :
    endsAt text (spot.offset, spot.char) = .ok (Text.endsStatement spot) := by
  rw [endsAt, sliceFrom_of_mem_topLevel h]
  by_cases hsemicolon : spot.char = ';'
  · simp only [hsemicolon, if_true, Text.endsStatement]
    rfl
  by_cases hslash : spot.char = '/'
  · simp only [hslash, if_true, ok_bind]
    have hrest : startsWith "//".toList spot.rest = Text.endsStatement spot := by
      rw [Spot.rest, hslash, Text.endsStatement, hslash]
      exact startsWith_pair '/' '/' spot.after
    exact congrArg Except.ok hrest
  · have hfree : Text.endsStatement spot = false := by
      simp [Text.endsStatement, hsemicolon, hslash]
    simp only [hsemicolon, hslash, if_false, hfree]
    rfl

theorem cutStatement_eq (text : Text) : cutStatement text = .ok (Text.cutStatement text) := by
  have hfind : (items text).findM? (endsAt text) =
      .ok (((topLevel text).find? Text.endsStatement).map fun spot =>
        (spot.offset, spot.char)) := findM?_map_eq_ok fun _ hspot => endsAt_eq hspot
  rw [cutStatement, shownItems_eq, ok_bind, hfind, ok_bind, Text.cutStatement]
  cases hfound : (topLevel text).find? Text.endsStatement with
  | some spot =>
    have hslice := sliceTo_of_mem_topLevel (List.mem_of_find?_eq_some hfound)
    simp only [Option.map_some, Option.elim_some, hslice]
    rfl
  | none =>
    have hslice := sliceTo_append text []
    rw [List.append_nil] at hslice
    simp only [Option.map_none, Option.elim_none, hslice]
    rfl

/-! ### Groups -/

/-- Looks for the parenthesis that closes the one at `opening` among the characters from there on,
when `depth` parentheses are open and a literal of `quote` is, or none. -/
def closingFrom (opening depth : Nat) (quote : Option Char) (escaped : Bool) :
    List (Nat × Char) → Checked (Option Nat)
  | [] => return none
  | (offset, c) :: others =>
    match quote with
    | some mark =>
      if escaped then closingFrom opening depth (some mark) false others
      else if c = '\\' then closingFrom opening depth (some mark) true others
      else if c = mark then closingFrom opening depth none false others
      else closingFrom opening depth (some mark) false others
    | none =>
      if isQuote c then closingFrom opening depth (some c) false others
      else if c = '(' then closingFrom opening (depth + 1) none false others
      else if c = ')' then do
        let depth ← minus depth 1
        if depth = 0 then return some (opening + offset)
        else closingFrom opening depth none false others
      else closingFrom opening depth none false others

/-- The byte position of the parenthesis that closes the one at byte position `opening`. -/
def matchingParen (text : Text) (opening : Nat) : Checked (Option Nat) := do
  let rest ← sliceFrom text opening
  if startsWith "(".toList rest then closingFrom opening 0 none false (indices rest)
  else return none

/-- The search as it goes on in a state of the scan. -/
def closingIn (opening : Nat) : ScanState → List (Nat × Char) → Checked (Option Nat)
  | .code depth => closingFrom opening depth none false
  | .literal depth quote escaped => closingFrom opening depth (some quote) escaped

/-- Some parenthesis is open. -/
def Inside : ScanState → Prop
  | .code depth => 0 < depth
  | .literal depth _ _ => 0 < depth

/-- Inside parentheses the search comes to no fault and ends at the first character that the scan
shows. -/
theorem closingIn_eq (opening : Nat) {state : ScanState} (hinside : Inside state)
    (before : List Char) (t : Text) :
    closingIn opening state (indicesFrom (byteLength before) t) =
      .ok ((scanFrom .round state before t).head?.map fun spot => opening + spot.offset) := by
  -- What is not shown leads to a state in which some parenthesis is open still.
  induction t generalizing state before with
  | nil => cases state <;> rfl
  | cons c t ih =>
    rw [indicesFrom_cons]
    cases state with
    | code depth =>
      obtain ⟨depth, rfl⟩ := Nat.exists_eq_add_one_of_ne_zero (Nat.pos_iff_ne_zero.1 hinside)
      by_cases hquote : isQuote c = true
      · have hnext := ih (show Inside (.literal (depth + 1) c false) from Nat.succ_pos depth)
          (c :: before)
        rw [Expression.scanFrom_round_quote hquote, ← hnext]
        simp [closingIn, closingFrom, hquote]
      by_cases hopening : c = '('
      · have hnext := ih (show Inside (.code (depth + 2)) from Nat.succ_pos (depth + 1))
          (c :: before)
        subst hopening
        rw [Expression.scanFrom_round_opening, ← hnext]
        simp [closingIn, closingFrom, hquote]
      by_cases hclosing : c = ')'
      · subst hclosing
        cases depth with
        | zero =>
          rw [Text.scanFrom_cons_of_shows rfl]
          rfl
        | succ depth =>
          have hnext := ih (show Inside (.code (depth + 1)) from Nat.succ_pos depth)
            (')' :: before)
          rw [Expression.scanFrom_round_closing, ← hnext]
          simp [closingIn, closingFrom, minus, hquote]
      · have hnext := ih (show Inside (.code (depth + 1)) from Nat.succ_pos depth) (c :: before)
        rw [Expression.scanFrom_round_plain (Bool.eq_false_iff.2 hquote) hopening hclosing,
          ← hnext]
        simp [closingIn, closingFrom, hquote, hopening, hclosing]
    | literal depth quote escaped =>
      have hshows : (ScanState.literal depth quote escaped).shows .round c = false := by
        have hdepth : depth ≠ 0 := Nat.pos_iff_ne_zero.1 hinside
        simp [ScanState.shows, hdepth]
      have hnext : ∀ state', (ScanState.literal depth quote escaped).step .round c = state' →
          Inside state' → closingIn opening state' (indicesFrom (byteLength (c :: before)) t) =
            .ok ((scanFrom .round (.literal depth quote escaped) before (c :: t)).head?.map
              fun spot => opening + spot.offset) := by
        rintro state' rfl hinside'
        rw [Text.scanFrom_cons_of_not_shows hshows]
        exact ih hinside' (c :: before)
      cases escaped with
      | true =>
        rw [← hnext (.literal depth quote false) rfl hinside]
        simp [closingIn, closingFrom]
      | false =>
        by_cases hslash : c = '\\'
        · rw [← hnext (.literal depth quote true) (by simp [ScanState.step, hslash]) hinside]
          simp [closingIn, closingFrom, hslash]
        by_cases hquote : c = quote
        · subst hquote
          rw [← hnext (.code depth) (by simp [ScanState.step, hslash]) hinside]
          simp [closingIn, closingFrom, hslash]
        · rw [← hnext (.literal depth quote false)
            (by simp [ScanState.step, hslash, hquote]) hinside]
          simp [closingIn, closingFrom, hslash, hquote]

/-- The group with which a text starts is closed at the first character that the scan shows behind
its parenthesis. -/
theorem closingSpot?_eq (t : Text) :
    Text.closingSpot? ('(' :: t) = (scanFrom .round (.code 1) ['('] t).head? := by
  have hscan : Text.scan .round ('(' :: t) =
      ⟨[], '(', t⟩ :: scanFrom .round (.code 1) ['('] t := Text.scanFrom_cons_of_shows rfl
  rw [Text.closingSpot?, hscan]
  cases scanFrom .round (.code 1) ['('] t <;> rfl

theorem closingSpot?_eq_none (hc : c ≠ '(') (t : Text) : Text.closingSpot? (c :: t) = none := by
  unfold Text.closingSpot?
  split
  · rename_i heq
    exact absurd (List.cons.inj heq).1 hc
  · rfl

/-- From a boundary on, the search comes to no fault. -/
theorem matchingParen_eq {opening : Nat} (h : Text.IsBoundary text opening) :
    matchingParen text opening = .ok (Text.matchingParen text opening) := by
  obtain ⟨s, t, rfl, rfl⟩ := h
  rw [matchingParen, sliceFrom_append, ok_bind, Text.matchingParen,
    Expression.dropBytes_byteLength]
  cases t with
  | nil => rfl
  | cons c t =>
    by_cases hc : c = '('
    · subst hc
      have hsearch := closingIn_eq (byteLength s) (show Inside (.code 1) from Nat.one_pos) ['('] t
      rw [closingSpot?_eq, ← hsearch]
      rfl
    · have hstarts : startsWith "(".toList (c :: t) = false := by
        simp [startsWith, Text.afterLead, Ne.symm hc]
      rw [closingSpot?_eq_none hc, hstarts]
      rfl

/-- The contents of the group that the first opening parenthesis of a text starts. -/
def firstParenGroup (text : Text) : Checked (Option Text) := do
  match find? (· == '(') text with
  | none => return none
  | some opening =>
    match ← matchingParen text opening with
    | none => return none
    | some close =>
      let inner ← slice text (opening + 1) close
      return some inner

theorem slice_group (s inner rest : Text) :
    slice (s ++ '(' :: (inner ++ ')' :: rest)) (byteLength s + 1)
      (byteLength s + (1 + byteLength inner)) = .ok inner := by
  have hsize : '('.utf8Size = 1 := rfl
  refine slice_eq_ok_iff.2 ⟨s ++ ['('], ')' :: rest, by simp, ?_, ?_⟩
  · simp [hsize]
  · simp [hsize, Nat.add_assoc]

/-- A group that is closed is sliced out, and the search for its end comes to no fault. -/
theorem group_cases (s t : Text) :
    (matchingParen (s ++ '(' :: t) (byteLength s) = .ok none ∧ Text.parenGroup ('(' :: t) = none) ∨
      ∃ close inner, matchingParen (s ++ '(' :: t) (byteLength s) = .ok (some close) ∧
        Text.parenGroup ('(' :: t) = some inner ∧
        slice (s ++ '(' :: t) (byteLength s + 1) close = .ok inner := by
  have hboundary : Text.IsBoundary (s ++ '(' :: t) (byteLength s) := ⟨s, '(' :: t, rfl, rfl⟩
  rw [matchingParen_eq hboundary]
  cases hclose : Text.matchingParen (s ++ '(' :: t) (byteLength s) with
  | none =>
    refine .inl ⟨rfl, ?_⟩
    rw [Text.matchingParen, Expression.dropBytes_byteLength, Option.map_eq_none_iff] at hclose
    rw [Text.parenGroup, hclose]
    rfl
  | some close =>
    obtain ⟨inner, rest, rfl, hinner, rfl⟩ := Expression.matchingParen_eq_some_iff.1 hclose
    exact .inr ⟨_, inner, rfl, Expression.parenGroup_eq_some_iff.2 ⟨hinner, rest, rfl⟩,
      slice_group s inner rest⟩

theorem firstParenGroup_eq (text : Text) :
    firstParenGroup text = .ok (Text.firstParenGroup text) := by
  by_cases hmem : '(' ∈ text
  · obtain ⟨s, t, rfl, hs⟩ := List.eq_append_cons_of_mem hmem
    have hfront := beq_false_of_not_mem hs
    have hdrop : (s ++ '(' :: t).dropWhile (· != '(') = '(' :: t := by
      rw [List.dropWhile_append_of_pos]
      · rfl
      · intro d hd
        simp [bne, hfront d hd]
    rw [firstParenGroup, find?_append_cons hfront (by rfl), Text.firstParenGroup, hdrop]
    rcases group_cases s t with ⟨hsearch, hgroup⟩ | ⟨close, inner, hsearch, hgroup, hslice⟩
    · simp only [hsearch, hgroup, ok_bind]
      rfl
    · simp only [hsearch, hgroup, ok_bind, hslice]
      rfl
  · have hnone := beq_false_of_not_mem hmem
    have hdrop : text.dropWhile (· != '(') = [] := by
      rw [List.dropWhile_eq_nil_iff]
      intro d hd
      simp [bne, hnone d hd]
    rw [firstParenGroup, find?_eq_none hnone, Text.firstParenGroup, hdrop]
    rfl

end Stepwise.Bytewise
