import Stepwise.Proofs.Expression.Evaluation

/-!
# The names that a fragment reads

A value is looked up under the whole words of a fragment and under nothing else. Splitting
and trimming cut a fragment at operators and white space, and neither belongs to a word, so
a piece that is a word is a whole word of the fragment and never a part of a longer one.
Two environments with the same values for the whole words of a fragment give it the same
value: which other names they bind, in which order, and which of them are constants does not
matter.

## Main definitions

* `Stepwise.Text.IsWordOf` — a word that stands in a text as a whole.
* `Stepwise.Text.words` — the list of them.
* `Stepwise.Environment.readings` — what an environment says about some names.

## Main results

* `Stepwise.Text.IsWordOf.of_trim`, `isWordOf_of_sides` — cutting a text makes no words.
* `Stepwise.Expression.evaluate_congr` — evaluation reads the words of a fragment.
* `Stepwise.Expression.evaluate_reads_words` — nothing else in an environment matters.
-/

namespace Stepwise

namespace Text

variable {word text left right s t : Text}

/-! ### Whole words -/

/-- The word stands in the text as a whole: no word character is next to it. -/
structure IsWordOf (word text : Text) : Prop where
  isWord : Text.isWord word = true
  /-- There is a place where it cannot be made longer on either side. -/
  place : ∃ before after, text = before ++ (word ++ after) ∧
    continuesWord before.reverse = false ∧ continuesWord after = false

/-- The whole words of a text, in order. -/
def words (text : Text) : List Text :=
  (List.range text.length).filterMap fun i =>
    if continuesWord (text.take i).reverse then none
    else (leadingWord (text.drop i)).map Prod.fst

theorem mem_words_iff : word ∈ words text ↔ IsWordOf word text := by
  constructor
  · intro h
    obtain ⟨i, _, hi⟩ := List.mem_filterMap.1 h
    split at hi
    · cases hi
    · rename_i hbefore
      obtain ⟨⟨first, after⟩, hleading, rfl⟩ := Option.map_eq_some_iff.1 hi
      obtain ⟨hdrop, hword, hafter⟩ := leadingWord_eq_some_iff.1 hleading
      refine ⟨hword, text.take i, after, ?_, Bool.eq_false_iff.2 hbefore, hafter⟩
      rw [← hdrop, List.take_append_drop]
  · rintro ⟨hword, before, after, rfl, hbefore, hafter⟩
    have hne : word ≠ [] := by
      rintro rfl
      cases hword
    refine List.mem_filterMap.2 ⟨before.length, ?_, ?_⟩
    · have hlength := List.length_pos_iff.2 hne
      rw [List.mem_range, List.length_append, List.length_append]
      omega
    · rw [List.take_left, List.drop_left, if_neg (Bool.eq_false_iff.1 hbefore),
        leadingWord_eq_some_iff.2 ⟨rfl, hword, hafter⟩]
      rfl

/-- Words in literals count as well. -/
example : words "a1 + 'b c'".toList = ["a1".toList, ['b'], ['c']] := by decide

instance (word text : Text) : Decidable (IsWordOf word text) :=
  decidable_of_iff _ mem_words_iff

theorem isWordOf_self (h : isWord text = true) : IsWordOf text text where
  isWord := h
  place := ⟨[], [], by simp, rfl, rfl⟩

/-! ### Cutting -/

theorem continuesWord_append (hs : continuesWord s = false) (ht : continuesWord t = false) :
    continuesWord (s ++ t) = false := by
  cases s with
  | nil => exact ht
  | cons c s => exact hs

theorem continuesWord_of_forall (h : ∀ c ∈ s, isWordChar c = false) :
    continuesWord s = false := by
  cases s with
  | nil => rfl
  | cons c s => exact h c List.mem_cons_self

theorem continuesWord_append_of_forall (hne : s ≠ []) (h : ∀ c ∈ s, isWordChar c = false)
    (t : Text) : continuesWord (s ++ t) = false := by
  obtain ⟨c, rest, rfl⟩ := List.exists_cons_of_ne_nil hne
  exact h c List.mem_cons_self

/-- A whole word of a piece that is cut out where no word goes on is one of the text. -/
theorem IsWordOf.append (h : IsWordOf word text) (hs : continuesWord s.reverse = false)
    (ht : continuesWord t = false) : IsWordOf word (s ++ (text ++ t)) := by
  obtain ⟨hword, before, after, rfl, hbefore, hafter⟩ := h
  refine ⟨hword, s ++ before, after ++ t, by simp, ?_, continuesWord_append hafter ht⟩
  rw [List.reverse_append]
  exact continuesWord_append hbefore hs

/-- Trimming cuts white space off a text, which belongs to no word. -/
theorem IsWordOf.of_trim (h : IsWordOf word (trim text)) : IsWordOf word text := by
  obtain ⟨lead, trail, heq, hlead, htrail⟩ := exists_eq_trim text
  rw [heq]
  apply h.append
  · refine continuesWord_of_forall fun c hc => ?_
    exact isWordChar_of_isBlank (hlead c (List.mem_reverse.1 hc))
  · exact continuesWord_of_forall fun c hc => isWordChar_of_isBlank (htrail c hc)

/-- A separator between two sides belongs to no word, so the words of a side are words of the
text. -/
theorem isWordOf_of_sides (hne : s ≠ []) (hs : ∀ c ∈ s, isWordChar c = false)
    (h : IsWordOf word left ∨ IsWordOf word right) : IsWordOf word (left ++ (s ++ right)) := by
  rcases h with h | h
  · exact h.append (s := []) rfl (continuesWord_append_of_forall hne hs right)
  · have hlead : continuesWord (left ++ s).reverse = false := by
      rw [List.reverse_append]
      apply continuesWord_append_of_forall (by simpa using hne)
      intro c hc
      exact hs c (List.mem_reverse.1 hc)
    have happend := h.append hlead (t := []) rfl
    rwa [List.append_nil, List.append_assoc] at happend

end Text

/-! ### What an environment says -/

/-- The given names that are bound, with their values, in the order of the bindings. -/
def Environment.readings (env : Environment) (names : List Text) : List (Text × Value) :=
  (env.map.entries.filter fun entry => names.contains entry.1).map fun entry =>
    (entry.1, entry.2.value)

theorem Environment.mem_readings_iff {env : Environment} {names : List Text} {name : Text}
    {value : Value} (hnodup : env.names.Nodup) (hname : name ∈ names) :
    (name, value) ∈ env.readings names ↔ env.valueOf? name = some value := by
  rw [readings, List.mem_map]
  constructor
  · rintro ⟨entry, hmem, heq⟩
    cases heq
    rw [valueOf?, get?, OrderedMap.get?_of_mem hnodup (List.mem_filter.1 hmem).1]
    rfl
  · intro hvalue
    obtain ⟨binding, hget, rfl⟩ := Option.map_eq_some_iff.1 hvalue
    refine ⟨(name, binding), List.mem_filter.2 ⟨?_, List.contains_iff_mem.2 hname⟩, rfl⟩
    exact OrderedMap.mem_entries_of_get? hget

namespace Expression

open Text (IsWordOf)

variable {env env' : Environment} {t left right : Text}

/-! ### Operators -/

theorem isWordChar_of_mem_symbol {op : Comparison} {c : Char} (h : c ∈ op.symbol) :
    Text.isWordChar c = false := by
  have hany : op.symbol.any Text.isWordChar = false := by cases op <;> decide
  exact Bool.eq_false_iff.2 (List.any_eq_false.1 hany c h)

theorem isWordChar_symbol (op : Arithmetic) : Text.isWordChar op.symbol = false := by
  cases op <;> decide

theorem isWordOf_of_splitComparison {op : Comparison}
    (hsplit : splitComparison t = some (left, op, right)) {word : Text}
    (h : IsWordOf word left ∨ IsWordOf word right) : IsWordOf word t := by
  have hne : op.symbol ≠ [] := by cases op <;> exact List.cons_ne_nil _ _
  have hsymbol : ∀ c ∈ op.symbol, Text.isWordChar c = false := fun _ =>
    isWordChar_of_mem_symbol
  rw [eq_of_splitComparison hsplit, List.append_assoc]
  exact Text.isWordOf_of_sides hne hsymbol h

theorem isWordOf_of_splitArithmetic {op : Arithmetic}
    (hsplit : splitArithmetic t = some (left, op, right)) {word : Text}
    (h : IsWordOf word left ∨ IsWordOf word right) : IsWordOf word t := by
  have hsymbol : ∀ c ∈ [op.symbol], Text.isWordChar c = false := by
    intro c hc
    rw [List.mem_singleton.1 hc]
    exact isWordChar_symbol op
  rw [eq_of_splitArithmetic hsplit]
  exact Text.isWordOf_of_sides (List.cons_ne_nil _ _) hsymbol h

/-! ### Evaluation -/

/-- A literal does not depend on the environment, and a name is looked up as it is. -/
theorem atom?_congr (h : ∀ word, IsWordOf word t → env.valueOf? word = env'.valueOf? word) :
    atom? env t.trim = atom? env' t.trim := by
  by_cases hword : Text.isWord t.trim = true
  · have hwhole : IsWordOf t.trim t := (Text.isWordOf_self hword).of_trim
    rw [atom?, atom?, h t.trim hwhole]
  · rw [atom?, atom?, if_neg hword, if_neg hword]

/-- Evaluation reads the words of a fragment. -/
theorem evaluate_congr (h : ∀ word, IsWordOf word t → env.valueOf? word = env'.valueOf? word) :
    evaluate env t = evaluate env' t := by
  -- The words of both sides of a split are words of the fragment, where the two agree.
  fun_induction evaluate env t with
  | case1 fragment text value hatom =>
    rw [atom?_congr h] at hatom
    rw [evaluate_of_atom? hatom]
  | case2 fragment text hatom left op right hsplit ihleft ihright =>
    rw [atom?_congr h] at hatom
    rw [evaluate_of_splitComparison hatom hsplit, ihleft, ihright]
    · intro word hword
      exact h word (isWordOf_of_splitComparison hsplit (.inr hword)).of_trim
    · intro word hword
      exact h word (isWordOf_of_splitComparison hsplit (.inl hword)).of_trim
  | case3 fragment text hatom hcomparison left op right hsplit ihleft ihright =>
    rw [atom?_congr h] at hatom
    rw [evaluate_of_splitArithmetic hatom hcomparison hsplit, ihleft, ihright]
    · intro word hword
      exact h word (isWordOf_of_splitArithmetic hsplit (.inr hword)).of_trim
    · intro word hword
      exact h word (isWordOf_of_splitArithmetic hsplit (.inl hword)).of_trim
  | case4 fragment text hatom hcomparison harithmetic =>
    rw [atom?_congr h] at hatom
    rw [evaluate_of_unsplit hatom hcomparison harithmetic]

/-- The evaluator reads only the names that occur. Two environments with the same value, or
none, for each whole word of a fragment give it the same value. So do two environments that
bind no name twice and say the same about these words, whatever the order of their bindings,
their constants and their other names; and a write to any other name changes nothing. -/
theorem evaluate_reads_words (fragment : Text) :
    (∀ env env' : Environment,
      (∀ word, IsWordOf word fragment → env.valueOf? word = env'.valueOf? word) →
      evaluate env fragment = evaluate env' fragment) ∧
    (∀ env env' : Environment, env.names.Nodup → env'.names.Nodup →
      (env.readings fragment.words).Perm (env'.readings fragment.words) →
      evaluate env fragment = evaluate env' fragment) ∧
    ∀ (env : Environment) (name : Text) (value : Value) (constant : Bool),
      ¬ IsWordOf name fragment →
      evaluate (env.set name value constant) fragment = evaluate env fragment := by
  refine ⟨fun env env' h => evaluate_congr h, ?_, ?_⟩
  · intro env env' hnodup hnodup' hperm
    apply evaluate_congr
    intro word hword
    have hmem : word ∈ fragment.words := Text.mem_words_iff.2 hword
    ext value
    rw [← Environment.mem_readings_iff hnodup hmem, ← Environment.mem_readings_iff hnodup' hmem]
    exact hperm.mem_iff
  · intro env name value constant hname
    apply evaluate_congr
    intro word hword
    have hne : word ≠ name := by
      rintro rfl
      exact hname hword
    rw [Environment.valueOf?, Environment.get?_set_of_ne env value constant hne]
    rfl

/-- Other constants, another order and a name that is only a part of a word: the fragment has
the same value in all three environments. -/
theorem evaluate_reads_words_reordered :
    let fragment : Text := "$ < abc".toList
    let env := (Environment.empty.set ['$'] .null false).set "abc".toList (.bool true) true
    let reordered := (Environment.empty.set "abc".toList (.bool true) false).set ['$'] .null true
    let written := env.set "ab".toList .null false
    ((∀ word, IsWordOf word fragment → written.valueOf? word = reordered.valueOf? word) ∧
      evaluate written fragment = evaluate reordered fragment) ∧
    (env.names.Nodup ∧ reordered.names.Nodup ∧
      (env.readings fragment.words).Perm (reordered.readings fragment.words) ∧
      evaluate env fragment = evaluate reordered fragment) ∧
    ¬ IsWordOf "ab".toList fragment ∧ evaluate written fragment = evaluate env fragment := by
  intro fragment env reordered written
  have hwords : fragment.words = [['$'], "abc".toList] := by decide
  have hagree : ∀ word, IsWordOf word fragment →
      written.valueOf? word = reordered.valueOf? word := by
    intro word hword
    rw [← Text.mem_words_iff, hwords, List.mem_cons, List.mem_singleton] at hword
    rcases hword with rfl | rfl <;> rfl
  have hnodup : env.names.Nodup := by decide
  have hnodup' : reordered.names.Nodup := by decide
  have hperm : (env.readings fragment.words).Perm (reordered.readings fragment.words) := by
    rw [hwords]
    exact .swap _ _ _
  have hpart : ¬ IsWordOf "ab".toList fragment := by decide
  obtain ⟨hcongr, horder, hwrite⟩ := evaluate_reads_words fragment
  exact ⟨⟨hagree, hcongr written reordered hagree⟩,
    ⟨hnodup, hnodup', hperm, horder env reordered hnodup hnodup' hperm⟩,
    hpart, hwrite env "ab".toList .null false hpart⟩

end Expression

end Stepwise
