import Stepwise.Proofs.Expression.Semantics

/-!
# Comparisons next to shifts and arrows

The characters of comparisons also write shifts, arrows and assignments that shift. A single `<`
or `>` is taken for a comparison only where it stands alone, so shifts and arrows are left whole.
The characters next to `<=` and `>=` are not looked at, although these end the assignments `<<=`,
`>>=` and `>>>=`: the first of such assignments is split before its last two characters.

## Main definitions

* `Stepwise.Expression.StandsAlone` — a comparison that is no part of a longer token.
* `Stepwise.Expression.cluster` — the comparison characters around a spot.
* `Stepwise.Expression.shiftTokens`, `assigningTokens` — shifts and arrows, and the assignments
  that shift.
* `Stepwise.Expression.Shifts` — texts in which the characters of comparisons write shifts and
  arrows only.

## Main results

* `Stepwise.Expression.standsAlone_iff` — which comparisons stand alone.
* `Stepwise.Expression.Shifts.splitComparison_eq_none` — shifts and arrows are not split.
* `Stepwise.Expression.splits_shift_assignment` — an assignment that is split.
-/

namespace Stepwise.Expression

open Text (ScanState Spot scanFrom topLevel)

variable {spot : Spot} {text left right before after token s t : Text} {op : Comparison} {c : Char}

/-! ### Comparisons that stand alone -/

/-- A comparison is not the end of a shift or of an arrow, nor the start of a shift. -/
structure StandsAlone (left : Text) (op : Comparison) (right : Text) : Prop where
  /-- What begins with `<` does not follow `<`. -/
  less : op = .lt ∨ op = .le → left.getLast? ≠ some '<'
  /-- What begins with `>` follows neither `>` nor `=`. -/
  greater : op = .gt ∨ op = .ge → left.getLast? ≠ some '>' ∧ left.getLast? ≠ some '='
  /-- A single character is not doubled. -/
  bare : op.isBare = true → right.head? ≠ op.symbol.head?

theorem of_comparisonAt? (h : comparisonAt? spot = some (op, right)) :
    spot.rest = op.symbol ++ right ∧
      (op.isBare = true → spot.before.head? ≠ some '=' ∧ spot.before.head? ≠ some spot.char ∧
        right.head? ≠ some spot.char) := by
  obtain ⟨hleading, hfree⟩ := Option.filter_eq_some_iff.1 h
  refine ⟨Comparison.leading?_eq_some hleading, fun hbare => ?_⟩
  simpa [hbare, not_or, and_assoc] using hfree

/-- Where a comparison is split off, it is found at a spot. -/
theorem exists_spot_of_splitComparison (h : splitComparison text = some (left, op, right)) :
    ∃ spot ∈ topLevel text, comparisonAt? spot = some (op, right) ∧ spot.left = left := by
  obtain ⟨spot, hmem, hspot⟩ := List.exists_of_findSome?_eq_some h
  obtain ⟨⟨op', right'⟩, hat, heq⟩ := Option.map_eq_some_iff.1 hspot
  cases heq
  exact ⟨spot, hmem, hat, rfl⟩

/-- A comparison that is split off stands alone, unless it is `<=` or `>=` at the end of a longer
token. -/
theorem standsAlone_iff (h : splitComparison text = some (left, op, right)) :
    StandsAlone left op right ↔
      (op = .le → left.getLast? ≠ some '<') ∧
        (op = .ge → left.getLast? ≠ some '>' ∧ left.getLast? ≠ some '=') := by
  constructor
  · intro halone
    exact ⟨fun hop => halone.less (.inr hop), fun hop => halone.greater (.inr hop)⟩
  rintro ⟨hle, hge⟩
  obtain ⟨spot, _, hat, rfl⟩ := exists_spot_of_splitComparison h
  obtain ⟨hrest, hfree⟩ := of_comparisonAt? hat
  have hlast : spot.left.getLast? = spot.before.head? := List.getLast?_reverse
  cases op with
  | lt =>
    have hchar : spot.char = '<' := (List.cons.inj hrest).1
    obtain ⟨_, hbefore, hright⟩ := hfree rfl
    rw [hchar] at hbefore hright
    exact ⟨fun _ => hlast ▸ hbefore, by simp, fun _ => hright⟩
  | gt =>
    have hchar : spot.char = '>' := (List.cons.inj hrest).1
    obtain ⟨hequals, hbefore, hright⟩ := hfree rfl
    rw [hchar] at hbefore hright
    exact ⟨by simp, fun _ => hlast ▸ ⟨hbefore, hequals⟩, fun _ => hright⟩
  | le => exact ⟨fun _ => hle rfl, by simp, by simp [Comparison.isBare]⟩
  | ge => exact ⟨by simp, fun _ => hge rfl, by simp [Comparison.isBare]⟩
  | _ => exact ⟨by simp, by simp, by simp [Comparison.isBare]⟩

/-! ### Tokens -/

/-- Shifts and arrows. -/
def shiftTokens : List Text :=
  ["<<".toList, ">>".toList, ">>>".toList, "=>".toList]

/-- Assignments that shift. -/
def assigningTokens : List Text :=
  ["<<=".toList, ">>=".toList, ">>>=".toList]

/-- The characters of comparisons around a spot, up to the nearest other ones. -/
def cluster (spot : Spot) : Text :=
  (spot.before.takeWhile comparisonStarts.contains).reverse ++
    spot.char :: spot.after.takeWhile comparisonStarts.contains

/-- The characters of comparisons at the top level of a text write shifts and arrows only. -/
def Shifts (text : Text) : Prop :=
  ∀ spot ∈ topLevel text, spot.char ∈ comparisonStarts → cluster spot ∈ shiftTokens

instance (text : Text) : Decidable (Shifts text) :=
  inferInstanceAs (Decidable (∀ spot ∈ topLevel text, _))

/-- A character at which no comparison starts: no equals sign follows, and `<` and `>` have an
equals sign in front or one of their kind on one side. -/
def Inert (before : Text) (c : Char) (after : Text) : Prop :=
  after.head? ≠ some '=' ∧
    (c = '<' ∨ c = '>' →
      before.head? = some '=' ∨ before.head? = some c ∨ after.head? = some c)

instance (before : Text) (c : Char) (after : Text) : Decidable (Inert before c after) :=
  inferInstanceAs (Decidable (_ ∧ _))

/-- At an inert character there is no comparison. -/
theorem Inert.comparisonAt?_eq_none (h : Inert spot.before spot.char spot.after) :
    comparisonAt? spot = none := by
  obtain ⟨hequals, hneighbour⟩ := h
  rw [Option.eq_none_iff_forall_ne_some]
  rintro ⟨op, right⟩ hat
  obtain ⟨hrest, hfree⟩ := of_comparisonAt? hat
  cases op with
  | lt | gt =>
    obtain ⟨hchar, rfl⟩ := List.cons.inj hrest
    obtain ⟨hbefore, hbefore', hafter⟩ := hfree rfl
    rcases hneighbour (by rw [hchar]; decide) with h | h | h
    · exact hbefore h
    · exact hbefore' h
    · exact hafter h
  | _ =>
    have hafter := (List.cons.inj hrest).2
    exact hequals (by rw [hafter]; rfl)

/-- Only the nearest characters matter, and of these only the ones of comparisons. -/
theorem Inert.of_takeWhile
    (h : Inert (before.takeWhile comparisonStarts.contains) c
      (after.takeWhile comparisonStarts.contains)) : Inert before c after := by
  obtain ⟨hequals, hneighbour⟩ := h
  rw [List.head?_takeWhile] at hequals hneighbour
  constructor
  · intro hafter
    rw [hafter] at hequals
    exact hequals rfl
  · intro hc
    rw [List.head?_takeWhile, Option.filter_eq_some_iff, Option.filter_eq_some_iff,
      Option.filter_eq_some_iff] at hneighbour
    rcases hneighbour hc with h | h | h
    · exact .inl h.1
    · exact .inr (.inl h.1)
    · exact .inr (.inr h.1)

theorem inert_of_mem_shiftTokens (h : before.reverse ++ c :: after ∈ shiftTokens) :
    Inert before c after := by
  have hplaces : ∀ token ∈ shiftTokens, ∀ i < token.length,
      Inert (token.take i).reverse (token.getD i ' ') (token.drop (i + 1)) := by decide
  have hplace := hplaces _ h before.length (by simp)
  have hchar : (before.reverse ++ c :: after).getD before.length ' ' = c := by simp
  have htake : (before.reverse ++ c :: after).take before.length = before.reverse := by simp
  have hdrop : (before.reverse ++ c :: after).drop (before.length + 1) = after := by
    simp [List.drop_append]
  rwa [htake, hchar, hdrop, List.reverse_reverse] at hplace

theorem comparisonAt?_of_cluster (h : cluster spot ∈ shiftTokens) : comparisonAt? spot = none :=
  (inert_of_mem_shiftTokens h).of_takeWhile.comparisonAt?_eq_none

/-- A text with shifts and arrows only is not split. -/
theorem Shifts.splitComparison_eq_none (h : Shifts text) : splitComparison text = none := by
  rw [splitComparison, List.findSome?_eq_none_iff]
  intro spot hspot
  have hnone : comparisonAt? spot = none := by
    by_cases hchar : spot.char ∈ comparisonStarts
    · exact comparisonAt?_of_cluster (h spot hspot hchar)
    · exact comparisonAt?_eq_none hchar
  rw [hnone, Option.map_none]

/-! ### Assignments that shift -/

/-- Of repeated angles with an equals sign behind them, the last one is taken with it. -/
theorem findSome?_scanFrom_replicate (hc : c = '<' ∨ c = '>') (hsymbol : op.symbol = [c, '='])
    (before : List Char) (n : Nat) (t : Text) :
    ((scanFrom .all (.code 0) before (List.replicate n c ++ c :: '=' :: t)).findSome? fun spot =>
        (comparisonAt? spot).map fun (op, right) => (spot.left, op, right)) =
      some (before.reverse ++ List.replicate n c, op, t) := by
  have hstep : (ScanState.code 0).step .all c = .code 0 := by rcases hc with rfl | rfl <;> rfl
  induction n generalizing before with
  | zero =>
    have hat : comparisonAt? ⟨before, c, '=' :: t⟩ = some (op, t) := by
      rcases hc with rfl | rfl <;> cases op <;> cases hsymbol <;> rfl
    rw [List.replicate_zero, List.nil_append, Text.scanFrom_cons_of_shows rfl,
      List.findSome?_cons_of_isSome (by rw [hat]; rfl), hat]
    simp [Spot.left]
  | succ n ih =>
    have hafter : (List.replicate n c ++ c :: '=' :: t).head? = some c := by cases n <;> rfl
    have hnone : comparisonAt? ⟨before, c, List.replicate n c ++ c :: '=' :: t⟩ = none := by
      refine Inert.comparisonAt?_eq_none ⟨?_, fun _ => .inr (.inr hafter)⟩
      rw [hafter]
      rcases hc with rfl | rfl <;> decide
    rw [List.replicate_succ, List.cons_append, Text.scanFrom_cons_of_shows rfl, hstep,
      List.findSome?_cons_of_isNone (by rw [hnone]; rfl), ih]
    simp

/-- The cluster of a spot is the same with more text behind, if something else ends the text. -/
theorem cluster_extend (hlast : s.getLast?.any comparisonStarts.contains = false)
    (hspot : spot ∈ topLevel s) (hchar : spot.char ∈ comparisonStarts) (more : Text) :
    cluster (spot.extend more) = cluster spot := by
  have htext := Text.text_of_mem_topLevel hspot
  obtain ⟨start, d, hafter, hd⟩ : ∃ start d, spot.after = start ++ [d] ∧ d ∉ comparisonStarts := by
    rcases List.eq_nil_or_concat' spot.after with hnil | ⟨start, d, hafter⟩
    · rw [← htext, Spot.text, Spot.rest, hnil, List.getLast?_concat] at hlast
      exact absurd hchar (by simpa using hlast)
    · have hparts : spot.text = (spot.left ++ spot.char :: start) ++ [d] := by
        rw [Spot.text, Spot.rest, hafter, List.append_assoc, List.cons_append]
      rw [← htext, hparts, List.getLast?_concat] at hlast
      exact ⟨start, d, hafter, by simpa using hlast⟩
  have htake : (spot.after ++ more).takeWhile comparisonStarts.contains =
      spot.after.takeWhile comparisonStarts.contains := by
    simp [hafter, List.takeWhile_append, hd]
  rw [cluster, cluster, ← htake]
  rfl

/-- Behind shifts and arrows, the first assignment that shifts is split. -/
theorem Shifts.splitComparison_append (h : Shifts s)
    (hclosed : ScanState.start.run .all s = .code 0)
    (hlast : s.getLast?.any comparisonStarts.contains = false) (htoken : token ∈ assigningTokens)
    (t : Text) :
    ∃ op : Comparison, op.symbol = token.drop (token.length - 2) ∧
      splitComparison (s ++ (token ++ t)) = some (s ++ token.take (token.length - 2), op, t) := by
  obtain ⟨c, n, op, hc, hsymbol, rfl⟩ : ∃ (c : Char) (n : Nat) (op : Comparison),
      (c = '<' ∨ c = '>') ∧ op.symbol = [c, '='] ∧ token = List.replicate n c ++ [c, '='] := by
    simp only [assigningTokens, List.mem_cons, List.not_mem_nil, or_false] at htoken
    rcases htoken with rfl | rfl | rfl
    · exact ⟨'<', 1, .le, .inl rfl, rfl, rfl⟩
    · exact ⟨'>', 1, .ge, .inr rfl, rfl, rfl⟩
    · exact ⟨'>', 2, .ge, .inr rfl, rfl, rfl⟩
  refine ⟨op, by simp [hsymbol], ?_⟩
  have hfront : ((topLevel s).map (Spot.extend (List.replicate n c ++ [c, '='] ++ t))).findSome?
      (fun spot => (comparisonAt? spot).map fun (op, right) => (spot.left, op, right)) = none := by
    rw [List.findSome?_eq_none_iff]
    intro spot hspot
    obtain ⟨spot, hmem, rfl⟩ := List.mem_map.1 hspot
    have hnone : comparisonAt? (spot.extend (List.replicate n c ++ [c, '='] ++ t)) = none := by
      by_cases hchar : spot.char ∈ comparisonStarts
      · refine comparisonAt?_of_cluster ?_
        rw [cluster_extend hlast hmem hchar]
        exact h spot hmem hchar
      · exact comparisonAt?_eq_none hchar
    rw [hnone, Option.map_none]
  have hback := findSome?_scanFrom_replicate hc hsymbol s.reverse n t
  have htoken : List.replicate n c ++ [c, '='] ++ t = List.replicate n c ++ c :: '=' :: t := by simp
  rw [topLevel, Text.scan] at hfront
  rw [splitComparison, topLevel, Text.scan, Text.scanFrom_append, List.findSome?_append, hfront,
    hclosed, List.append_nil, Option.none_or, htoken, hback, List.reverse_reverse]
  simp

/-! ### Which texts are split -/

/-- Which comparisons stand alone, and which texts are split. A comparison that is split off stands
alone, unless it is `<=` or `>=` at the end of a longer token. A text in which the characters of
comparisons write shifts and arrows is not split; an assignment that shifts behind such a text is
split before its last two characters. -/
theorem comparison_tokens (text : Text) :
    (∀ left op right, splitComparison text = some (left, op, right) →
        (StandsAlone left op right ↔
          (op = .le → left.getLast? ≠ some '<') ∧
            (op = .ge → left.getLast? ≠ some '>' ∧ left.getLast? ≠ some '='))) ∧
      (Shifts text → splitComparison text = none) ∧
      (Shifts text → ScanState.start.run .all text = .code 0 →
        text.getLast?.any comparisonStarts.contains = false → ∀ token ∈ assigningTokens, ∀ t,
          ∃ op : Comparison, op.symbol = token.drop (token.length - 2) ∧
            splitComparison (text ++ (token ++ t)) =
              some (text ++ token.take (token.length - 2), op, t)) := by
  refine ⟨?_, ?_, ?_⟩
  · intro left op right hsplit
    exact standsAlone_iff hsplit
  · intro hshifts
    exact hshifts.splitComparison_eq_none
  · intro hshifts hclosed hlast token htoken t
    exact hshifts.splitComparison_append hclosed hlast htoken t

/-- A comparison behind a shift; a shift and an arrow next to a group that hides a comparison; an
assignment behind these. -/
theorem comparison_tokens_arrow :
    StandsAlone "a << 1 ".toList .lt " b".toList ∧
      Shifts "(a < b) => c >> d ".toList ∧ splitComparison "(a < b) => c >> d ".toList = none ∧
      ∃ op : Comparison, splitComparison
          ("(a < b) => c >> d ".toList ++ (">>>=".toList ++ " 3".toList)) =
        some ("(a < b) => c >> d ".toList ++ ">>".toList, op, " 3".toList) := by
  obtain ⟨halone, _⟩ := comparison_tokens "a << 1 < b".toList
  obtain ⟨_, hnone, hsplit⟩ := comparison_tokens "(a < b) => c >> d ".toList
  have hless : splitComparison "a << 1 < b".toList = some ("a << 1 ".toList, .lt, " b".toList) := by
    decide
  have hshifts : Shifts "(a < b) => c >> d ".toList := by decide
  obtain ⟨op, -, hop⟩ := hsplit hshifts (by decide) (by decide) ">>>=".toList (by decide)
    " 3".toList
  exact ⟨(halone _ _ _ hless).2 ⟨nofun, nofun⟩, hshifts, hnone hshifts, op, hop⟩

/-- An assignment that shifts and no other comparison character: the text is split, and the
comparison does not stand alone. -/
theorem splits_shift_assignment :
    (∀ spot ∈ topLevel "a <<= b".toList,
        spot.char ∈ comparisonStarts → cluster spot = "<<=".toList) ∧
      splitComparison "a <<= b".toList = some ("a <".toList, .le, " b".toList) ∧
      ¬ StandsAlone "a <".toList .le " b".toList := by
  refine ⟨by decide, by decide, fun h => ?_⟩
  exact h.less (.inr rfl) rfl

end Stepwise.Expression
