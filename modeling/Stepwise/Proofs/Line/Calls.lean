import Mathlib.Data.List.TakeWhile
import Stepwise.Line.Shape
import Stepwise.Proofs.Expression.Parentheses

/-!
# Finding output calls

An output call is looked for from the left, and the search ends at the first one, whether or not
its parenthesis is closed. That hides nothing: a closing parenthesis behind a later call stands
behind the first one as well. So arguments are found exactly if some call has a closing parenthesis
behind it, and they are those of the first such call.

## Main definitions

* `Stepwise.Line.CallAt` — an output call is written somewhere in a text.
* `Stepwise.Line.Arguments` — how far the arguments of a call reach.

## Main results

* `Stepwise.Line.arguments_iff` — the arguments that are cut out behind a parenthesis.
* `Stepwise.Line.outputArguments?_cases` — the search ends at the first call.
* `Stepwise.Line.output_detection` — which texts have arguments, and which these are.
-/

namespace Stepwise.Line

open Expression (RoundNested)
open Text (parenGroup)

variable {c : Char} {text before after before' after' arguments call : Text}

/-- An output call is written in the text, with `before` before its name and `after` behind its
opening parenthesis. -/
def CallAt (text before after : Text) : Prop :=
  ∃ method ∈ outputMethods, text = before ++ ("console.".toList ++ (method ++ '(' :: after))

/-- How far the arguments of a call reach behind whose parenthesis `after` stands: up to the
parenthesis that closes the call, or to the last one if none does. -/
inductive Arguments (after : Text) : Text → Prop where
  | closed {arguments rest : Text} (eq : after = arguments ++ ')' :: rest)
      (nested : RoundNested arguments) : Arguments after arguments
  | unclosed {arguments rest : Text} (eq : after = arguments ++ ')' :: rest)
      (last : ')' ∉ rest) (unmatched : ∀ inner rest, after = inner ++ ')' :: rest →
        ¬ RoundNested inner) : Arguments after arguments

/-! ### The arguments of a call -/

/-- The text before the last occurrence of a character. -/
theorem beforeLast?_eq_some_iff :
    beforeLast? c text = some before ↔ ∃ rest, text = before ++ c :: rest ∧ c ∉ rest := by
  have hsplit := List.takeWhile_append_dropWhile (p := (· != c)) (l := text.reverse)
  unfold beforeLast?
  constructor
  · intro h
    split at h
    · cases h
    · rename_i d front hdrop
      cases h
      obtain rfl : d = c := by
        have := List.head_dropWhile_not (· != c) (l := text.reverse) (by simp [hdrop])
        simpa [hdrop] using this
      refine ⟨(text.reverse.takeWhile (· != d)).reverse, ?_, ?_⟩
      · have hparts := congrArg List.reverse hsplit
        rw [hdrop] at hparts
        simpa using hparts.symm
      · intro hmem
        have hpassed := List.mem_takeWhile_imp (List.mem_reverse.1 hmem)
        simp at hpassed
  · rintro ⟨rest, rfl, hrest⟩
    have hpassed : ∀ d ∈ rest.reverse, (d != c) = true := by
      intro d hd
      simp only [bne_iff_ne]
      rintro rfl
      exact hrest (List.mem_reverse.1 hd)
    rw [List.reverse_append, List.reverse_cons, List.append_assoc,
      List.dropWhile_append_of_pos hpassed]
    simp

/-- Some text stands before a last occurrence if there is one at all. -/
theorem beforeLast?_eq_none_iff : beforeLast? c text = none ↔ c ∉ text := by
  constructor
  · intro h hmem
    unfold beforeLast? at h
    split at h
    · rename_i hdrop
      have hpassed := List.dropWhile_eq_nil_iff.1 hdrop c (List.mem_reverse.2 hmem)
      simp at hpassed
    · cases h
  · intro hmem
    rw [Option.eq_none_iff_forall_not_mem]
    intro front hfront
    obtain ⟨rest, rfl, -⟩ := beforeLast?_eq_some_iff.1 hfront
    exact hmem (by simp)

/-- The arguments that are cut out behind the parenthesis of a call are those that it has. -/
theorem arguments_iff :
    (parenGroup ('(' :: after)).or (beforeLast? ')' after) = some arguments ↔
      Arguments after arguments := by
  rw [Option.or_eq_some_iff, Expression.parenGroup_eq_some_iff, beforeLast?_eq_some_iff]
  constructor
  · rintro (⟨hnested, rest, heq⟩ | ⟨hnone, rest, heq, hlast⟩)
    · exact .closed heq hnested
    · refine .unclosed heq hlast fun inner rest hinner hnested => ?_
      have hsome := Expression.parenGroup_eq_some_iff.2 ⟨hnested, rest, hinner⟩
      rw [hnone] at hsome
      cases hsome
  · rintro (⟨heq, hnested⟩ | ⟨heq, hlast, hunmatched⟩)
    · exact .inl ⟨hnested, _, heq⟩
    · refine .inr ⟨?_, _, heq, hlast⟩
      rw [Option.eq_none_iff_forall_not_mem]
      intro inner hinner
      obtain ⟨hnested, rest, hrest⟩ := Expression.parenGroup_eq_some_iff.1 hinner
      exact hunmatched inner rest hrest hnested

/-- A call has arguments if a closing parenthesis stands behind it. -/
theorem exists_arguments_iff : (∃ arguments, Arguments after arguments) ↔ ')' ∈ after := by
  constructor
  · rintro ⟨arguments, ⟨rfl, -⟩ | ⟨rfl, -⟩⟩
    all_goals simp
  · intro hmem
    cases hlast : beforeLast? ')' after with
    | none => exact absurd hmem (beforeLast?_eq_none_iff.1 hlast)
    | some inner =>
      cases hgroup : parenGroup ('(' :: after) with
      | none => exact ⟨inner, arguments_iff.1 (by rw [hgroup, hlast]; rfl)⟩
      | some inner => exact ⟨inner, arguments_iff.1 (by rw [hgroup]; rfl)⟩

/-! ### The first call -/

/-- A text starts with a call exactly if the call is recognized there. -/
theorem outputCall?_eq_some_iff :
    outputCall? text = some call ↔ ∃ after, call = '(' :: after ∧ CallAt text [] after := by
  constructor
  · intro h
    unfold outputCall? at h
    split at h
    · cases h
    · rename_i rest hrest
      obtain ⟨method, hmethod, hcall⟩ := List.exists_of_findSome?_eq_some h
      obtain ⟨hafter, hhead⟩ := Option.filter_eq_some_iff.1 hcall
      obtain ⟨after, rfl⟩ := List.head?_eq_some_iff.1 (eq_of_beq hhead)
      refine ⟨after, rfl, method, hmethod, ?_⟩
      rw [Text.afterLead_eq_some_iff.1 hrest, Text.afterLead_eq_some_iff.1 hafter]
      rfl
  · rintro ⟨after, rfl, method, hmethod, rfl⟩
    simp only [outputMethods, List.mem_cons, List.not_mem_nil, or_false] at hmethod
    rcases hmethod with rfl | rfl | rfl | rfl <;> rfl

theorem callAt_cons_iff : CallAt (c :: text) (c :: before) after ↔ CallAt text before after := by
  simp [CallAt]

/-- The search finds no call, or it ends at the first one. -/
theorem outputArguments?_cases (text : Text) :
    (outputArguments? text = none ∧ ∀ before after, ¬ CallAt text before after) ∨
      ∃ before after, CallAt text before after ∧
        (∀ before' after', CallAt text before' after' → before.length ≤ before'.length) ∧
        ∀ arguments, outputArguments? text = some arguments ↔ Arguments after arguments := by
  induction text with
  | nil =>
    refine .inl ⟨rfl, ?_⟩
    rintro before after ⟨method, -, heq⟩
    simp at heq
  | cons c text ih =>
    cases hcall : outputCall? (c :: text) with
    | some call =>
      obtain ⟨after, rfl, hafter⟩ := outputCall?_eq_some_iff.1 hcall
      refine .inr ⟨[], after, hafter, fun _ _ _ => Nat.zero_le _, fun arguments => ?_⟩
      rw [outputArguments?, hcall]
      exact arguments_iff
    | none =>
      have hskip : outputArguments? (c :: text) = outputArguments? text := by
        rw [outputArguments?, hcall]
      have hbehind : ∀ before after, CallAt (c :: text) before after →
          ∃ before', before = c :: before' ∧ CallAt text before' after := by
        intro before after h
        cases before with
        | nil =>
          have hsome := outputCall?_eq_some_iff.2 ⟨after, rfl, h⟩
          rw [hcall] at hsome
          cases hsome
        | cons d before =>
          obtain rfl : c = d := by
            obtain ⟨method, -, heq⟩ := h
            exact (List.cons.inj heq).1
          exact ⟨before, rfl, callAt_cons_iff.1 h⟩
      rw [hskip]
      rcases ih with ⟨hnone, hall⟩ | ⟨before, after, hfirst, hleast, harguments⟩
      · refine .inl ⟨hnone, fun before after h => ?_⟩
        obtain ⟨before', -, h'⟩ := hbehind before after h
        exact hall before' after h'
      · refine .inr ⟨c :: before, after, callAt_cons_iff.2 hfirst, ?_, harguments⟩
        intro before' after' h
        obtain ⟨before'', rfl, h'⟩ := hbehind before' after' h
        exact Nat.succ_le_succ (hleast before'' after' h')

/-! ### Detection -/

/-- What stands behind a later call stands behind an earlier one as well. -/
theorem CallAt.mem_of_le (h : CallAt text before after) (h' : CallAt text before' after')
    (hle : before.length ≤ before'.length) (hmem : ')' ∈ after') : ')' ∈ after := by
  obtain ⟨method, hmethod, rfl⟩ := h
  obtain ⟨method', -, heq⟩ := h'
  obtain ⟨middle, rfl⟩ : before <+: before' :=
    List.prefix_of_prefix_length_le ⟨_, heq⟩ (List.prefix_append _ _) hle
  rw [List.append_assoc, List.append_cancel_left_eq] at heq
  have hrest : ')' ∈ "console.".toList ++ (method ++ '(' :: after) := by
    rw [heq]
    simp [hmem]
  -- The name of the call has no parenthesis but the opening one.
  have hname : ')' ∉ "console.".toList ++ (method ++ ['(']) := by
    simp only [outputMethods, List.mem_cons, List.not_mem_nil, or_false] at hmethod
    rcases hmethod with rfl | rfl | rfl | rfl <;> decide
  have hparts : "console.".toList ++ (method ++ '(' :: after) =
      "console.".toList ++ (method ++ ['(']) ++ after := by simp
  rw [hparts, List.mem_append] at hrest
  exact hrest.resolve_left hname

/-- A call is told by its place. -/
theorem CallAt.eq_of_length_eq (h : CallAt text before after) (h' : CallAt text before' after')
    (hlength : before.length = before'.length) : after = after' := by
  obtain ⟨method, hmethod, rfl⟩ := h
  obtain ⟨method', hmethod', heq⟩ := h'
  obtain ⟨rfl, hcall⟩ := List.append_inj heq hlength
  have hsome := outputCall?_eq_some_iff.2 ⟨after, rfl, method, hmethod, rfl⟩
  have hsome' := outputCall?_eq_some_iff.2 ⟨after', rfl, method', hmethod', rfl⟩
  rw [List.nil_append, hcall] at hsome
  rw [List.nil_append, hsome, Option.some.injEq] at hsome'
  exact (List.cons.inj hsome').2

/-- Output detection is exact. Arguments are found in a text exactly if some output call in it has
a closing parenthesis behind it. They are those of the first such call, which reach up to the
parenthesis that closes it, or up to the last one of the text if none does. -/
theorem output_detection (text : Text) :
    ((outputArguments? text).isSome = true ↔
      ∃ before after, CallAt text before after ∧ ')' ∈ after) ∧
    ∀ arguments, outputArguments? text = some arguments ↔
      ∃ before after, CallAt text before after ∧ ')' ∈ after ∧
        (∀ before' after', CallAt text before' after' → ')' ∈ after' →
          before.length ≤ before'.length) ∧
        Arguments after arguments := by
  rcases outputArguments?_cases text with
    ⟨hnone, hall⟩ | ⟨before, after, hcall, hleast, harguments⟩
  · rw [hnone]
    refine ⟨⟨fun h => (by cases h), ?_⟩, fun arguments => ⟨fun h => (by cases h), ?_⟩⟩
    · rintro ⟨before, after, h, -⟩
      exact absurd h (hall before after)
    · rintro ⟨before, after, h, -⟩
      exact absurd h (hall before after)
  constructor
  · rw [Option.isSome_iff_exists]
    simp only [harguments, exists_arguments_iff]
    constructor
    · exact fun hmem => ⟨before, after, hcall, hmem⟩
    · rintro ⟨before', after', hcall', hmem⟩
      exact hcall.mem_of_le hcall' (hleast before' after' hcall') hmem
  · intro arguments
    rw [harguments]
    constructor
    · intro h
      exact ⟨before, after, hcall, exists_arguments_iff.1 ⟨arguments, h⟩,
        fun before' after' hcall' _ => hleast before' after' hcall', h⟩
    · rintro ⟨before', after', hcall', hmem, hleast', h⟩
      have hle := hleast before' after' hcall'
      have hge := hleast' before after hcall (hcall.mem_of_le hcall' hle hmem)
      rwa [hcall.eq_of_length_eq hcall' (Nat.le_antisymm hle hge)]

example : outputArguments? "f(console.log(a, console.warn(b);".toList =
    some "a, console.warn(b".toList := by decide

end Stepwise.Line
