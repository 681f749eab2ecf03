import Stepwise.Proofs.Text.Characters

/-!
# Scanning a text in parts

A scan of a text is the scan of its first part followed by the scan of the rest from
the state in which the first part leaves it. What the first part shows does not
depend on what follows, except that the spots see more text after them.

## Main definitions

* `Stepwise.Text.IsBoundary` — the byte positions at which a text can be cut.
* `Stepwise.Text.ScanState.run` — the state after a whole text.
* `Stepwise.Text.Spot.extend`, `Stepwise.Text.Spot.shift` — a spot when more text follows or
  precedes.

## Main results

* `Stepwise.Text.scanFrom_append` — a scan of two parts, one after the other.
* `Stepwise.Text.scanFrom_shift` — a scan does not look at what stands before.
* `Stepwise.Text.topLevel_append` — the top level of two parts, the first of which leaves all
  literals and groups.
* `Stepwise.Text.step_code_of_not_mem_marks` — a character without a role of its own leaves
  the state of a scan.
-/

namespace Stepwise.Text

variable {brackets : Brackets} {state : ScanState} {before : List Char} {c : Char} {s t : Text}

/-- A character of the text starts at this byte position, or the text ends there. -/
def IsBoundary (text : Text) (place : Nat) : Prop :=
  ∃ s t, text = s ++ t ∧ place = byteLength s

namespace ScanState

/-- The state after a whole text. -/
def run (brackets : Brackets) (state : ScanState) (text : Text) : ScanState :=
  text.foldl (step brackets) state

@[simp] theorem run_nil : state.run brackets [] = state := rfl

@[simp] theorem run_cons :
    state.run brackets (c :: t) = (state.step brackets c).run brackets t := rfl

@[simp] theorem run_append :
    state.run brackets (s ++ t) = (state.run brackets s).run brackets t :=
  List.foldl_append

end ScanState

namespace Spot

/-- The spot when `more` follows the text in which it lies. -/
def extend (more : Text) (spot : Spot) : Spot :=
  { spot with after := spot.after ++ more }

@[simp] theorem extend_char (spot : Spot) : (spot.extend t).char = spot.char := rfl

/-- The spot when `more` precedes the text in which it lies, nearest character first. -/
def shift (more : List Char) (spot : Spot) : Spot :=
  { spot with before := spot.before ++ more }

@[simp] theorem shift_char (more : List Char) (spot : Spot) :
    (spot.shift more).char = spot.char := rfl

theorem left_shift (more : Text) (spot : Spot) :
    (spot.shift more.reverse).left = more ++ spot.left := by
  simp [left, shift]

end Spot

/-! ### One part after the other -/

theorem scanFrom_cons_of_shows (h : state.shows brackets c = true) :
    scanFrom brackets state before (c :: t) =
      ⟨before, c, t⟩ :: scanFrom brackets (state.step brackets c) (c :: before) t := by
  simp [scanFrom, h]

theorem scanFrom_cons_of_not_shows (h : state.shows brackets c = false) :
    scanFrom brackets state before (c :: t) =
      scanFrom brackets (state.step brackets c) (c :: before) t := by
  simp [scanFrom, h]

/-- A scan of two parts: the second is scanned from where the first one leads. -/
theorem scanFrom_append :
    scanFrom brackets state before (s ++ t) =
      (scanFrom brackets state before s).map (Spot.extend t) ++
        scanFrom brackets (state.run brackets s) (s.reverse ++ before) t := by
  induction s generalizing state before with
  | nil => simp [scanFrom]
  | cons d s ih =>
    cases hshows : state.shows brackets d with
    | true =>
      rw [List.cons_append, scanFrom_cons_of_shows hshows, scanFrom_cons_of_shows hshows, ih]
      simp [Spot.extend]
    | false =>
      rw [List.cons_append, scanFrom_cons_of_not_shows hshows,
        scanFrom_cons_of_not_shows hshows, ih]
      simp

/-- A scan does not look at what stands before the text. -/
theorem scanFrom_shift {more : List Char} :
    scanFrom brackets state (before ++ more) t =
      (scanFrom brackets state before t).map (Spot.shift more) := by
  induction t generalizing state before with
  | nil => rfl
  | cons c t ih =>
    have hrest : scanFrom brackets (state.step brackets c) (c :: before ++ more) t =
        (scanFrom brackets (state.step brackets c) (c :: before) t).map (Spot.shift more) := ih
    rw [List.cons_append] at hrest
    cases hshows : state.shows brackets c with
    | true =>
      rw [scanFrom_cons_of_shows hshows, scanFrom_cons_of_shows hshows, hrest, List.map_cons]
      rfl
    | false => rw [scanFrom_cons_of_not_shows hshows, scanFrom_cons_of_not_shows hshows, hrest]

/-- Where a text leaves all literals and groups, the top level of what follows is shown as it
is shown alone. -/
theorem topLevel_append (hs : ScanState.start.run .all s = .code 0) (t : Text) :
    topLevel (s ++ t) =
      (topLevel s).map (Spot.extend t) ++ (topLevel t).map (Spot.shift s.reverse) := by
  have hback : scanFrom .all (.code 0) ([] ++ s.reverse) t =
      (topLevel t).map (Spot.shift s.reverse) := scanFrom_shift
  rw [List.nil_append] at hback
  rw [topLevel, scan, scanFrom_append, hs, List.append_nil, hback]
  rfl

/-! ### Characters outside literals and groups -/

@[simp] theorem shows_code_zero : (ScanState.code 0).shows brackets c = true := rfl

/-- A character without a role of its own leaves a scan of code where it is. -/
theorem step_code_of_not_mem_marks {depth : Nat} (h : c ∉ marks) :
    (ScanState.code depth).step .all c = .code depth := by
  simp [ScanState.step, isQuote_eq_false_of_not_mem_marks h, opens_eq_false_of_not_mem_marks h,
    closes_eq_false_of_not_mem_marks h]

end Stepwise.Text
