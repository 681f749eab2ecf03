import Stepwise.Pane.Source
import Stepwise.Proofs.Engine.Terminal
import Stepwise.Proofs.Text.Trimming

/-!
# The executed line is on screen

The engine and the source pane count lines apart. The engine takes every piece between line feeds
for a line; the pane drops an empty last piece, and the carriage return in front of a line feed.
Execution stops on lines with something to see only, and of these both have the same: the same
number, and the same text up to white space. So the line that the pane follows is one that it has,
and scrolling keeps it in view.

## Main definitions

* `Stepwise.Engine.StopsOn` — the program has an executable line with a given number.

## Main results

* `Stepwise.Line.getElem?_readFrom`, `Stepwise.Pane.getElem?_linesOfPieces` — what the engine and
  the pane make of one piece.
* `Stepwise.Engine.Step.stopsOn_currentLine`, `Stepwise.Engine.Reachable.stopsOn_currentLine` — the
  line executed last is one of the program, after one step and after all.
* `Stepwise.Pane.SourceScroll.offset_follow` — where the shown part starts.
* `Stepwise.Pane.executed_line_visible` — the line that is followed is shown, in full pages.
-/

namespace Stepwise

/-! ### Two ways of counting lines -/

namespace Line

/-- A line has its number and its text from its place among the raw lines. -/
theorem getElem?_readFrom (first : Nat) (raws : List Text) (i : Nat) :
    (readFrom first raws)[i]? = raws[i]?.map (read (first + i)) := by
  induction raws generalizing first i with
  | nil => rfl
  | cons raw raws ih =>
    cases i with
    | zero => rfl
    | succ i =>
      rw [readFrom, List.getElem?_cons_succ, List.getElem?_cons_succ, ih, Nat.add_assoc,
        Nat.add_comm 1 i]

theorem ne_nil_of_isExecutable_read {number : Nat} {raw : Text}
    (h : (read number raw).isExecutable = true) : raw ≠ [] := by
  rintro rfl
  cases h

end Line

theorem Text.trim_concat_return (text : Text) : trim (text ++ ['\r']) = trim text := by
  have hright : trimRight (text ++ ['\r']) = trimRight text := by
    rw [trimRight, List.reverse_append]
    rfl
  rw [← trim_trimRight, hright, trim_trimRight]

namespace Pane

/-- Dropping the carriage return drops nothing else. -/
theorem eq_or_eq_dropReturn (line : Text) :
    line = dropReturn line ∨ line = dropReturn line ++ ['\r'] := by
  unfold dropReturn
  split
  next hreturn =>
    obtain ⟨body, hbody⟩ := List.getLast?_eq_some_iff.1 (eq_of_beq hreturn)
    exact .inr (by rw [hbody, List.dropLast_concat])
  next => exact .inl rfl

/-- A piece that is not empty is a line of its own number, up to a carriage return. -/
theorem getElem?_linesOfPieces {pieces : List Text} {i : Nat} {raw : Text}
    (h : pieces[i]? = some raw) (hne : raw ≠ []) :
    ∃ shown, (linesOfPieces pieces)[i]? = some shown ∧ (raw = shown ∨ raw = shown ++ ['\r']) := by
  fun_induction linesOfPieces pieces generalizing i with
  | case1 => cases h
  | case2 last hempty =>
    cases i with
    | zero => exact absurd ((Option.some.inj h).symm.trans (List.isEmpty_iff.1 hempty)) hne
    | succ i => cases h
  | case3 last hempty => exact ⟨raw, h, .inl rfl⟩
  | case4 line others _ ih =>
    cases i with
    | zero =>
      obtain rfl : line = raw := Option.some.inj h
      exact ⟨dropReturn line, rfl, eq_or_eq_dropReturn line⟩
    | succ i => exact ih h

/-- A line that execution stops on is shown under its number, with the same text up to white
space. -/
theorem exists_sourceLine {source : Text} {line : Line} (hmem : line ∈ Line.program source)
    (hline : line.isExecutable = true) :
    ∃ i shown, line.number = i + 1 ∧ (Line.program source)[i]? = some line ∧
      (sourceLines source)[i]? = some shown ∧ shown.trim = line.text := by
  obtain ⟨i, hget⟩ := List.getElem?_of_mem hmem
  have hread := hget
  rw [Line.program, Line.getElem?_readFrom] at hread
  obtain ⟨raw, hraw, rfl⟩ := Option.map_eq_some_iff.1 hread
  obtain ⟨shown, hshown, hsame⟩ :=
    getElem?_linesOfPieces hraw (Line.ne_nil_of_isExecutable_read hline)
  refine ⟨i, shown, Nat.add_comm 1 i, hget, hshown, ?_⟩
  rcases hsame with rfl | rfl
  · rfl
  · exact (Text.trim_concat_return shown).symm

end Pane

/-! ### The line executed last -/

namespace Engine

variable {engine next : Engine}

/-- The program has a line with the given number that execution stops on. -/
def StopsOn (engine : Engine) (number : Nat) : Prop :=
  ∃ line ∈ engine.lines, line.isExecutable = true ∧ line.number = number

theorem stopsOn_of_next? {line : Line} {index : Nat} (h : engine.next? = some (line, index)) :
    engine.StopsOn line.number := by
  obtain ⟨-, -, hline, -, -⟩ := drop_of_next? h
  exact ⟨line, List.mem_of_getElem? (getElem?_of_next? h), hline, rfl⟩

/-- The announced line is one that execution stops on. -/
theorem stopsOn_of_nextLine? {number : Nat} (h : engine.nextLine? = some number) :
    engine.StopsOn number := by
  cases hlive : engine.status.isTerminal with
  | true =>
    have hnone : engine.nextLine? = none := if_pos hlive
    rw [hnone] at h
    cases h
  | false =>
    rw [nextLine?_of_live hlive] at h
    obtain ⟨⟨line, index⟩, hnext, rfl⟩ := Option.map_eq_some_iff.1 h
    exact stopsOn_of_next? hnext

/-- After a step the current line is the one stepped onto, or it is the same as before. -/
theorem Step.stopsOn_currentLine (hstep : engine.Step next)
    (h : 0 < engine.state.currentLine → engine.StopsOn engine.state.currentLine) :
    0 < next.state.currentLine → next.StopsOn next.state.currentLine := by
  cases hstep with
  | rest => exact h
  | finish => exact h
  | execute _ hnext =>
    have hstop := stopsOn_of_next? hnext
    exact fun _ => hstop
  | fail _ hnext refused =>
    have hstop := stopsOn_of_next? hnext
    rw [← refused.line_eq] at hstop
    exact fun _ => hstop

/-- The line executed last is one of the program. -/
theorem Reachable.stopsOn_currentLine (h : engine.Reachable) :
    0 < engine.state.currentLine → engine.StopsOn engine.state.currentLine := by
  -- A fresh state has no current line; only steps need the hypothesis.
  induction h with
  | new | load | reset => exact fun hpos => absurd hpos (Nat.lt_irrefl 0)
  | advance _ ih => exact (step_advance _).stopsOn_currentLine ih

/-- A reachable engine holds the lines of its text, or none at all. -/
theorem Reachable.exists_holds (h : engine.Reachable) :
    ∃ text, Holds engine.settings text engine := by
  induction h with
  | new settings => exact ⟨none, holds_new settings⟩
  | load source _ ih =>
    obtain ⟨text, htext⟩ := ih
    exact ⟨some source, htext.load source⟩
  | reset _ ih =>
    obtain ⟨text, htext⟩ := ih
    exact ⟨text, htext.answer .reset⟩
  | @advance engine _ ih =>
    obtain ⟨text, htext⟩ := ih
    have hsettings := (step_advance engine).program_eq.1
    exact ⟨text, hsettings ▸ htext.iterate 1⟩

/-- A line that execution stops on is one of the text. -/
theorem Reachable.lines_eq (h : engine.Reachable) {number : Nat} (hstop : engine.StopsOn number) :
    engine.lines = Line.program engine.source := by
  obtain ⟨text, htext⟩ := h.exists_holds
  cases text with
  | none =>
    obtain ⟨line, hmem, -⟩ := hstop
    rw [htext.lines_eq] at hmem
    exact absurd hmem List.not_mem_nil
  | some text =>
    rw [htext.source_eq]
    exact htext.lines_eq

end Engine

/-! ### Scrolling -/

namespace Pane

/-- The shown part contains the followed line, and it is a full page unless all lines fit. -/
theorem SourceScroll.offset_follow (scroll : SourceScroll) (height : Nat) {total currentLine : Nat}
    {nextLine : Option Nat} (hpos : 0 < focusLine currentLine nextLine)
    (hle : focusLine currentLine nextLine ≤ total) :
    let offset := (scroll.follow height total currentLine nextLine).offset
    let index := focusLine currentLine nextLine - 1
    offset ≤ index ∧ index < offset + visibleHeight height ∧
      (visibleHeight height < total → offset + visibleHeight height ≤ total) ∧
      (total ≤ visibleHeight height → offset = 0) := by
  intro offset index
  have hvisible : 0 < visibleHeight height := Nat.lt_of_lt_of_le Nat.one_pos (Nat.le_max_right ..)
  obtain ⟨row, hrow, hoffset⟩ : ∃ row, row < visibleHeight height ∧
      offset = clampScroll (index - row) total (visibleHeight height) := by
    refine ⟨min (scroll.targetRow.getD (visibleHeight height / 2)) (visibleHeight height - 1),
      by omega, ?_⟩
    simp only [offset, index, follow, hpos, hle, decide_true, Bool.and_self, if_true]
  have hindex : index < total := by omega
  rw [hoffset, clampScroll]
  split <;> omega

/-- The executed line is always on screen. In any reachable engine the line executed last, or
before the first step the next one, is one of the lines that the pane counts, and the pane shows
it with the text that the engine has, up to white space at the ends. Whatever the pane showed
before and however high it is, the part that it shows then contains this line, in the row of its
index; it is a full page if there are more lines than rows, and starts at the top otherwise. -/
theorem executed_line_visible {engine : Engine} (reachable : engine.Reachable) {focus : Nat}
    (followed : 0 < engine.state.currentLine ∧ focus = engine.state.currentLine ∨
      engine.state.currentLine = 0 ∧ engine.nextLine? = some focus)
    (scroll : SourceScroll) (height : Nat) :
    let lines := sourceLines engine.source
    let visible := visibleHeight height
    let offset :=
      (scroll.follow height lines.length engine.state.currentLine engine.nextLine?).offset
    (0 < focus ∧ focus ≤ lines.length) ∧
    (∃ line shown, engine.lines[focus - 1]? = some line ∧ line.number = focus ∧
      lines[focus - 1]? = some shown ∧ shown.trim = line.text ∧
      (((lines.zipIdx 1).drop offset).take visible)[focus - 1 - offset]? = some (shown, focus)) ∧
    (offset ≤ focus - 1 ∧ focus - 1 < offset + visible) ∧
    (visible < lines.length → offset + visible ≤ lines.length) ∧
    (lines.length ≤ visible → offset = 0) := by
  intro lines visible offset
  have hfocus : focusLine engine.state.currentLine engine.nextLine? = focus := by
    rcases followed with ⟨hpos, rfl⟩ | ⟨hzero, hnext⟩
    · exact if_pos hpos
    · rw [focusLine, hzero, hnext]
      rfl
  have hstop : engine.StopsOn focus := by
    rcases followed with ⟨hpos, rfl⟩ | ⟨-, hnext⟩
    · exact reachable.stopsOn_currentLine hpos
    · exact Engine.stopsOn_of_nextLine? hnext
  have hprogram := reachable.lines_eq hstop
  obtain ⟨line, hmem, hline, rfl⟩ := hstop
  obtain ⟨i, shown, hnumber, hget, hshown, htext⟩ := exists_sourceLine (hprogram ▸ hmem) hline
  have hlt : i < lines.length := (List.getElem?_eq_some_iff.1 hshown).1
  rw [hnumber] at hfocus ⊢
  have hle : focusLine engine.state.currentLine engine.nextLine? ≤ lines.length := hfocus ▸ hlt
  have hoffset := scroll.offset_follow height (hfocus ▸ Nat.succ_pos i) hle
  simp only [hfocus] at hoffset
  obtain ⟨hbelow, habove, hfull, htop⟩ := hoffset
  refine ⟨⟨Nat.succ_pos i, hlt⟩, ⟨line, shown, hprogram ▸ hget, hnumber, hshown, htext, ?_⟩,
    ⟨hbelow, habove⟩, hfull, htop⟩
  rw [List.getElem?_take_of_lt (by omega), List.getElem?_drop, List.getElem?_zipIdx,
    Nat.add_sub_cancel' hbelow, Nat.add_sub_cancel, hshown]
  simp [Nat.add_comm]

/-- The third line of this program is its only executable one. The engine counts a fifth line that
the pane does not have, and the pane drops the carriage returns. The row that was asked for is
outside the pane, and still the line is shown before the step onto it and after. -/
theorem executed_line_visible_returns :
    let loaded := (Engine.new {}).load "// one\r\n\r\n let x = 1 \r\n\x7d\r\n".toList
    let stepped := loaded.advance
    let lines := sourceLines loaded.source
    let scroll : SourceScroll := ⟨9, some 5⟩
    let before := (scroll.follow 4 lines.length 0 (some 3)).offset
    let after := (scroll.follow 4 lines.length 3 none).offset
    loaded.lines.length = 5 ∧ lines.length = 4 ∧
    (loaded.nextLine? = some 3 ∧ before ≤ 2 ∧ 2 < before + 2) ∧
    stepped.state.currentLine = 3 ∧ after ≤ 2 ∧ 2 < after + 2 := by
  intro loaded stepped lines scroll before after
  have hloaded : loaded.Reachable := .load _ (.new _)
  have hnext : loaded.nextLine? = some 3 := by decide +kernel
  have hcurrent : stepped.state.currentLine = 3 := by decide +kernel
  have hlast : stepped.nextLine? = none := by decide +kernel
  have hsource : stepped.source = loaded.source := (Engine.step_advance loaded).program_eq.2.1
  obtain ⟨-, -, hbefore, -⟩ := executed_line_visible hloaded (.inr ⟨rfl, hnext⟩) scroll 4
  obtain ⟨-, -, hafter, -⟩ := executed_line_visible hloaded.advance
    (.inl ⟨by rw [hcurrent]; decide, hcurrent.symm⟩) scroll 4
  rw [hnext] at hbefore
  rw [hcurrent, hlast, hsource] at hafter
  exact ⟨by decide, by decide, ⟨hnext, hbefore⟩, hcurrent, hafter⟩

end Pane

end Stepwise
