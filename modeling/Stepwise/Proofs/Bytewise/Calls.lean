import Stepwise.Proofs.Bytewise.Scanners
import Stepwise.Proofs.Line.Calls

/-!
# Finding calls by byte positions

The searches for calls move their position on by the sizes of what they have found: the name of
the console, the name of a method, a parenthesis. Where the parenthesis of an output call is not
closed, the end of the arguments is searched for from the other end of the text. All these
positions lie between characters, and each slice ends behind its start.

## Main definitions

* `Stepwise.Bytewise.findText?` — where a text occurs in another one.
* `Stepwise.Bytewise.outputArguments`, `callName` — the readers by byte positions.

## Main results

* `Stepwise.Bytewise.argumentsAt_eq` — the arguments behind a parenthesis.
* `Stepwise.Bytewise.outputArguments_eq`, `callName_eq` — no fault occurs, and the answer is that
  of the reader of characters.
-/

namespace Stepwise.Bytewise

open Line (outputMethods)
open Text (afterLead byteLength isWordChar startsWith)

variable {text piece s t : Text} {c : Char}

/-! ### Occurrences -/

/-- The byte position of the first occurrence of a piece in a text. -/
def findText? (piece : Text) : Text → Option Nat
  | [] => if piece.isEmpty then some 0 else none
  | c :: text =>
    if startsWith piece (c :: text) then some 0
    else (findText? piece text).map (c.utf8Size + ·)

/-- An occurrence ends within the text. -/
theorem findText?_add_le {found : Nat} (h : findText? piece text = some found) :
    found + byteLength piece ≤ byteLength text := by
  induction text generalizing found with
  | nil =>
    rw [findText?] at h
    split at h
    · rename_i hempty
      cases h
      rw [List.isEmpty_iff.1 hempty]
      exact Nat.le_refl 0
    · cases h
  | cons c text ih =>
    rw [findText?] at h
    split at h
    · rename_i hstarts
      cases h
      obtain ⟨rest, hrest⟩ := Option.isSome_iff_exists.1 hstarts
      rw [Text.afterLead_eq_some_iff.1 hrest, Text.byteLength_append, Nat.zero_add]
      exact Nat.le_add_right _ _
    · obtain ⟨found, hfound, rfl⟩ := Option.map_eq_some_iff.1 h
      have := ih hfound
      rw [Text.byteLength_cons]
      omega

/-! ### The arguments of a call -/

/-- A method is called at the start of a text. -/
def callsMethod (after method : Text) : Bool :=
  (afterLead method after).any (startsWith "(".toList)

/-- The byte position of the last closing parenthesis, provided that it stands behind `opening`. -/
def lastClosing? (text : Text) (opening : Nat) : Option Nat :=
  (findLast? (· == ')') text).filter fun place => opening < place

/-- The arguments of a call whose parenthesis stands at `opening`. If it is not closed, they reach
up to the last closing parenthesis. -/
def argumentsAt (text : Text) (opening : Nat) : Checked (Option Text) := do
  match (← matchingParen text opening).or (lastClosing? text opening) with
  | none => return none
  | some close =>
    let arguments ← slice text (opening + 1) close
    return some arguments

/-- Positions of characters lie before the end of the text. -/
theorem lt_of_mem_indicesFrom {place : Nat} {item : Nat × Char}
    (h : item ∈ indicesFrom place text) : item.1 < place + byteLength text := by
  induction text generalizing place with
  | nil => cases h
  | cons c text ih =>
    have hc := c.utf8Size_pos
    rw [Text.byteLength_cons]
    rcases List.mem_cons.1 h with rfl | h
    · exact Nat.lt_add_of_pos_right (Nat.add_pos_left hc _)
    · have := ih h
      omega

/-- The last character of a class stands before an end of the text that is free of it. -/
theorem findLast?_lt {p : Char → Bool} {place : Nat} (ht : ∀ d ∈ t, p d = false)
    (h : findLast? p (s ++ t) = some place) : place < byteLength s := by
  obtain ⟨item, hitem, rfl⟩ := Option.map_eq_some_iff.1 h
  have hmem := List.mem_reverse.1 (List.mem_of_find?_eq_some hitem)
  rw [indices_append, List.mem_append] at hmem
  rcases hmem with hmem | hmem
  · have := lt_of_mem_indicesFrom hmem
    omega
  · have hp := List.find?_some hitem
    rw [ht _ (snd_mem_of_mem_indicesFrom hmem)] at hp
    cases hp

theorem lastClosing?_eq_none (h : ')' ∉ t) :
    lastClosing? (s ++ '(' :: t) (byteLength s) = none := by
  have hfree : ')' ∉ '(' :: t := by simpa using h
  rw [lastClosing?, Option.filter_eq_none_iff]
  intro place hplace
  have := findLast?_lt (beq_false_of_not_mem hfree) hplace
  simp only [decide_eq_true_eq]
  omega

theorem lastClosing?_eq_some {inner rest : Text} (h : ')' ∉ rest) :
    lastClosing? (s ++ '(' :: (inner ++ ')' :: rest)) (byteLength s) =
      some (byteLength s + (1 + byteLength inner)) := by
  have hsize : '('.utf8Size = 1 := rfl
  have hlast := findLast?_append_cons (p := (· == ')')) (beq_self_eq_true ')')
    (beq_false_of_not_mem h) (s ++ '(' :: inner)
  rw [List.append_assoc, List.cons_append, Text.byteLength_append, Text.byteLength_cons, hsize]
    at hlast
  rw [lastClosing?, hlast, Option.filter_some, if_pos (by simp only [decide_eq_true_eq]; omega)]

/-- Behind a parenthesis the arguments are sliced without a fault. -/
theorem argumentsAt_eq (s t : Text) :
    argumentsAt (s ++ '(' :: t) (byteLength s) =
      .ok ((Text.parenGroup ('(' :: t)).or (Line.beforeLast? ')' t)) := by
  rcases group_cases s t with ⟨hsearch, hgroup⟩ | ⟨close, inner, hsearch, hgroup, hslice⟩
  · rw [argumentsAt, hsearch, hgroup, ok_bind, Option.none_or, Option.none_or]
    cases hbefore : Line.beforeLast? ')' t with
    | some inner =>
      obtain ⟨rest, rfl, hrest⟩ := Line.beforeLast?_eq_some_iff.1 hbefore
      simp only [lastClosing?_eq_some hrest, slice_group]
      rfl
    | none =>
      rw [lastClosing?_eq_none (Line.beforeLast?_eq_none_iff.1 hbefore)]
      rfl
  · rw [argumentsAt, hsearch, hgroup, ok_bind, Option.some_or, Option.some_or]
    simp only [hslice]
    rfl

/-! ### Output calls -/

/-- The arguments of the first output call from a byte position on. -/
def outputArgumentsFrom (text : Text) (start : Nat) : Checked (Option Text) :=
  match _hrest : sliceFrom text start with
  | .error fault => .error fault
  | .ok rest =>
    match _hfound : findText? "console.".toList rest with
    | none => .ok none
    | some found =>
      let place := start + (found + byteLength "console.".toList)
      match sliceFrom text place with
      | .error fault => .error fault
      | .ok after =>
        match outputMethods.find? (callsMethod after) with
        | some method => argumentsAt text (place + byteLength method)
        -- No call, so the search goes on behind the name.
        | none => outputArgumentsFrom text place
termination_by byteLength text - start
decreasing_by
  obtain ⟨s, t, rfl, rfl, -⟩ := slice_eq_ok_iff.1 _hrest
  have hle := findText?_add_le _hfound
  have hsize : byteLength "console.".toList = 8 := rfl
  simp only [Text.byteLength_append]
  omega

theorem outputArgumentsFrom_unfold (text : Text) (start : Nat) :
    outputArgumentsFrom text start = (do
      let rest ← sliceFrom text start
      match findText? "console.".toList rest with
      | none => return none
      | some found =>
        let place := start + (found + byteLength "console.".toList)
        let after ← sliceFrom text place
        match outputMethods.find? (callsMethod after) with
        | some method => argumentsAt text (place + byteLength method)
        | none => outputArgumentsFrom text place) := by
  rw [outputArgumentsFrom]
  split
  · rename_i fault hrest
    rw [hrest]
    rfl
  · rename_i rest hrest
    rw [hrest, ok_bind]
    split
    · rename_i hfound
      rw [hfound]
      rfl
    · rename_i found hfound
      rw [hfound]
      cases hafter : sliceFrom text (start + (found + byteLength "console.".toList)) with
      | error fault => simp only [hafter]; rfl
      | ok after => simp only [hafter, ok_bind]

/-- The arguments of the first output call on a line. -/
def outputArguments (text : Text) : Checked (Option Text) :=
  outputArgumentsFrom text 0

theorem callsMethod_iff {after method : Text} :
    callsMethod after method = true ↔ ∃ rest, after = method ++ '(' :: rest := by
  simp only [callsMethod, Option.any_eq_true, Text.afterLead_eq_some_iff, startsWith,
    Option.isSome_iff_exists]
  constructor
  · rintro ⟨rest, rfl, after, rfl⟩
    exact ⟨after, rfl⟩
  · rintro ⟨rest, rfl⟩
    exact ⟨'(' :: rest, rfl, rest, rfl⟩

/-- No output call starts before the first occurrence of the name of the console. -/
theorem findText?_console (text : Text) :
    (findText? "console.".toList text = none ∧ Line.outputArguments? text = none) ∨
      ∃ s t, text = s ++ ("console.".toList ++ t) ∧
        findText? "console.".toList text = some (byteLength s) ∧
        Line.outputArguments? text = Line.outputArguments? ("console.".toList ++ t) := by
  induction text with
  | nil => exact .inl ⟨rfl, rfl⟩
  | cons c text ih =>
    cases hlead : afterLead "console.".toList (c :: text) with
    | some t =>
      have htext := Text.afterLead_eq_some_iff.1 hlead
      have hstarts : startsWith "console.".toList (c :: text) = true := by
        rw [startsWith, hlead]
        rfl
      refine .inr ⟨[], t, htext, ?_, by rw [htext]⟩
      rw [findText?, if_pos hstarts]
      rfl
    | none =>
      have hstarts : ¬ startsWith "console.".toList (c :: text) = true := by
        rw [startsWith, hlead]
        exact Bool.false_ne_true
      have hskip : Line.outputArguments? (c :: text) = Line.outputArguments? text := by
        rw [Line.outputArguments?, Line.outputCall?, hlead]
      rw [findText?, if_neg hstarts, hskip]
      rcases ih with ⟨hfound, hnone⟩ | ⟨s, t, rfl, hfound, heq⟩
      · exact .inl ⟨by rw [hfound]; rfl, hnone⟩
      · exact .inr ⟨c :: s, t, rfl, by rw [hfound]; rfl, heq⟩

/-- Where a method of the console is called, its arguments stand behind the parenthesis. -/
theorem outputArguments?_call {method after : Text} (h : method ∈ outputMethods) :
    Line.outputArguments? ("console.".toList ++ (method ++ '(' :: after)) =
      (Text.parenGroup ('(' :: after)).or (Line.beforeLast? ')' after) := by
  have hcall : Line.outputCall? ('c' :: ("onsole.".toList ++ (method ++ '(' :: after))) =
      some ('(' :: after) := Line.outputCall?_eq_some_iff.2 ⟨after, rfl, method, h, rfl⟩
  change Line.outputArguments? ('c' :: ("onsole.".toList ++ (method ++ '(' :: after))) = _
  rw [Line.outputArguments?, hcall]
  rfl

/-- Where the name of the console starts no call, the search goes on behind it. -/
theorem outputArguments?_console (h : outputMethods.find? (callsMethod t) = none) :
    Line.outputArguments? ("console.".toList ++ t) = Line.outputArguments? t := by
  have hcall : Line.outputCall? ('c' :: ("onsole.".toList ++ t)) = none := by
    rw [Option.eq_none_iff_forall_not_mem]
    intro call hsome
    obtain ⟨after, -, method, hmethod, heq⟩ := Line.outputCall?_eq_some_iff.1 hsome
    have ht : "console.".toList ++ t = "console.".toList ++ (method ++ '(' :: after) := heq
    have hcalls : callsMethod t method = true :=
      callsMethod_iff.2 ⟨after, List.append_cancel_left ht⟩
    exact List.find?_eq_none.1 h method hmethod hcalls
  change Line.outputArguments? ('c' :: ("onsole.".toList ++ t)) = _
  rw [Line.outputArguments?, hcall]
  rfl

/-- From behind any leading part the search comes to no fault and finds what stands there. -/
theorem outputArgumentsFrom_eq (s t : Text) :
    outputArgumentsFrom (s ++ t) (byteLength s) = .ok (Line.outputArguments? t) := by
  induction hlength : t.length using Nat.strong_induction_on generalizing s t with
  | h n ih =>
    subst hlength
    rw [outputArgumentsFrom_unfold, sliceFrom_append, ok_bind]
    rcases findText?_console t with ⟨hfound, harguments⟩ | ⟨u, v, rfl, hfound, harguments⟩
    · rw [hfound, harguments]
      rfl
    · rw [hfound, harguments]
      have hplace : byteLength s + (byteLength u + byteLength "console.".toList) =
          byteLength (s ++ (u ++ "console.".toList)) := by
        rw [Text.byteLength_append, Text.byteLength_append]
      have htext : s ++ (u ++ ("console.".toList ++ v)) =
          s ++ (u ++ "console.".toList) ++ v := by simp only [List.append_assoc]
      simp only [hplace, htext, sliceFrom_append, ok_bind]
      cases hmethod : outputMethods.find? (callsMethod v) with
      | some method =>
        obtain ⟨after, rfl⟩ := callsMethod_iff.1 (List.find?_some hmethod)
        have hread := argumentsAt_eq (s ++ (u ++ "console.".toList) ++ method) after
        rw [List.append_assoc, Text.byteLength_append] at hread
        rw [outputArguments?_call (List.mem_of_find?_eq_some hmethod)]
        exact hread
      | none =>
        rw [outputArguments?_console hmethod]
        have hshorter : v.length < (u ++ ("console.".toList ++ v)).length := by
          simp only [List.length_append, String.length_toList]
          exact Nat.lt_add_left _ (Nat.lt_add_of_pos_left (by decide))
        exact ih v.length hshorter _ v rfl

theorem outputArguments_eq (text : Text) :
    outputArguments text = .ok (Line.outputArguments? text) :=
  outputArgumentsFrom_eq [] text

/-! ### Names of calls -/

/-- The byte position at which the word starts that a text ends with. -/
def wordStart? (text : Text) : Option Nat :=
  (((indices text).reverse.takeWhile fun item => isWordChar item.2).getLast?).map Prod.fst

/-- The name of the first call among some opening parentheses. -/
def callNameAt (text : Text) : List Nat → Checked (Option Text)
  | [] => return none
  | opening :: others => do
    let before ← sliceTo text opening
    match wordStart? before with
    | none => callNameAt text others
    | some start =>
      let rest ← sliceFrom text opening
      if rest.contains ')' then
        let name ← slice text start opening
        return some name
      else callNameAt text others

/-- The byte positions at which a character stands. -/
def places (c : Char) (items : List (Nat × Char)) : List Nat :=
  (items.filter fun item => item.2 == c).map Prod.fst

/-- The name of the first call on a line. -/
def callName (text : Text) : Checked (Option Text) :=
  callNameAt text (places '(' (indices text))

/-- What a text ends with is a word as long as the characters from its end on are in one; `before`
is the text from its end on. -/
theorem wordStart?_eq (before : List Char) :
    wordStart? before.reverse =
      if (before.takeWhile isWordChar).isEmpty then none
      else some (byteLength (before.dropWhile isWordChar)) := by
  have hsplit := List.takeWhile_append_dropWhile (p := isWordChar) (l := before)
  have hword : ∀ c ∈ before.takeWhile isWordChar, isWordChar c = true :=
    fun c hc => List.mem_takeWhile_imp hc
  have hfront : ∀ c u, before.dropWhile isWordChar = c :: u → isWordChar c = false :=
    fun c u => Text.eq_false_of_dropWhile_eq_cons
  generalize before.takeWhile isWordChar = word at hsplit hword ⊢
  generalize before.dropWhile isWordChar = front at hsplit hfront ⊢
  subst hsplit
  have hstop : (indices front.reverse).reverse.takeWhile (fun item => isWordChar item.2) = [] := by
    cases front with
    | nil => rfl
    | cons c front =>
      rw [List.reverse_cons, indices_append, List.reverse_append]
      simp [indicesFrom, hfront c front rfl]
  have hall : ∀ item ∈ (indicesFrom (byteLength front) word.reverse).reverse,
      isWordChar item.2 = true := by
    intro item hitem
    exact hword _ (List.mem_reverse.1 (snd_mem_of_mem_indicesFrom (List.mem_reverse.1 hitem)))
  rw [wordStart?, List.reverse_append, indices_append, List.reverse_append,
    Text.byteLength_reverse, List.takeWhile_append_of_pos hall, hstop, List.append_nil,
    List.getLast?_reverse]
  cases hreverse : word.reverse with
  | nil =>
    rw [List.reverse_eq_nil_iff.1 hreverse]
    rfl
  | cons c rest =>
    have hne : ¬ word.isEmpty = true := by
      rw [List.isEmpty_iff, ← List.reverse_eq_nil_iff, hreverse]
      exact List.cons_ne_nil c rest
    rw [if_neg hne]
    rfl

theorem slice_word (before : List Char) (t : Text) :
    slice (before.reverse ++ t) (byteLength (before.dropWhile isWordChar)) (byteLength before) =
      .ok (before.takeWhile isWordChar).reverse := by
  have hsplit := List.takeWhile_append_dropWhile (p := isWordChar) (l := before)
  refine slice_eq_ok_iff.2 ⟨(before.dropWhile isWordChar).reverse, t, ?_, ?_, ?_⟩
  · rw [← List.append_assoc, ← List.reverse_append, hsplit]
  · rw [Text.byteLength_reverse]
  · rw [Text.byteLength_reverse, Text.byteLength_reverse, Nat.add_comm,
      ← Text.byteLength_append, hsplit]

/-- What is passed stands before the parentheses that are left. -/
theorem callNameAt_eq (before : List Char) (t : Text) :
    callNameAt (before.reverse ++ t) (places '(' (indicesFrom (byteLength before) t)) =
      .ok (Line.callNameFrom before t) := by
  induction t generalizing before with
  | nil => rfl
  | cons c t ih =>
    have hnext := ih (c :: before)
    rw [List.reverse_cons, List.append_assoc, List.singleton_append] at hnext
    rw [indicesFrom_cons, Line.callNameFrom]
    by_cases hc : c = '('
    · subst hc
      have hplaces : places '(' ((byteLength before, '(') ::
          indicesFrom (byteLength ('(' :: before)) t) =
            byteLength before :: places '(' (indicesFrom (byteLength ('(' :: before)) t) := rfl
      have hto := sliceTo_append before.reverse ('(' :: t)
      have hfrom := sliceFrom_append before.reverse ('(' :: t)
      rw [Text.byteLength_reverse] at hto hfrom
      rw [hplaces, callNameAt, hto, ok_bind, wordStart?_eq]
      cases hword : (before.takeWhile isWordChar).isEmpty with
      | true => simpa using hnext
      | false =>
        have hcontains : ('(' :: t).contains ')' = t.contains ')' := rfl
        simp only [Bool.false_eq_true, if_false, hfrom, ok_bind, hcontains]
        cases t.contains ')' with
        | true =>
          simp only [if_true, slice_word]
          rfl
        | false => simpa using hnext
    · have hplaces : places '(' ((byteLength before, c) ::
          indicesFrom (byteLength (c :: before)) t) =
            places '(' (indicesFrom (byteLength (c :: before)) t) := by
        simp [places, hc]
      rw [hplaces, hnext]
      simp [hc]

theorem callName_eq (text : Text) : callName text = .ok (Line.callName? text) :=
  callNameAt_eq [] text

end Stepwise.Bytewise
