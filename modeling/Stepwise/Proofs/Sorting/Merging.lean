import Stepwise.Proofs.Sorting.Context

/-!
# What a merge compares

A merge reads both segments before it writes, and then compares the numbers that it has read. Its
moments highlight the positions from which they were read. In the second segment the number is
still at its position. In the first one it may not be: every number that was placed from the
second segment has pushed the others back, so that the position may have been written over. This
file says what stands there, and when it is the number that the words name.

## Main definitions

* `Stepwise.Sorting.Midway` — the invariant of the merging loop.
* `Stepwise.Sorting.Moment.NamesPlaces` — the words name the numbers at two positions.
* `Stepwise.Sorting.Moment.ComparesNext`, `Stepwise.Sorting.Moment.OfMerge` — the moments of the
  loop.

## Main results

* `Stepwise.Sorting.Midway.takeLeft`, `Stepwise.Sorting.Midway.takeRight` — what one step of the
  loop keeps.
* `Stepwise.Sorting.Midway.exists_shown` — what stands at the position in the first segment.
* `Stepwise.Sorting.exists_of_mergeSegment` — what one round of the recursion does.
* `Stepwise.Sorting.mergeLoop_ofMerge`, `Stepwise.Sorting.mergeSegment_comparesInMerge` — what the
  loop and the sort of a segment compare.
* `Stepwise.Sorting.merge_comparison` — what a comparison names and what it highlights.
-/

namespace Stepwise.Sorting

/-! ### The loop -/

/-- A merge has placed the numbers `us` of the first segment and `vs` of the second one, and has
`xs` and `ys` left of them. -/
structure Midway (us xs vs ys placed : List Int) : Prop where
  left_order : (us ++ xs).Pairwise (· ≤ ·)
  right_order : (vs ++ ys).Pairwise (· ≤ ·)
  /-- All that was taken is placed. -/
  perm : placed.Perm (us ++ vs)
  /-- What is placed is in order. -/
  order : placed.Pairwise (· ≤ ·)
  /-- What is placed is no greater than what is left of the first segment. -/
  le_left : ∀ p ∈ placed, ∀ x ∈ xs, p ≤ x
  /-- What is placed is no greater than what is left of the second segment. -/
  le_right : ∀ p ∈ placed, ∀ y ∈ ys, p ≤ y
  /-- A number of the second segment is placed before greater ones only. -/
  right_lt : ∀ v ∈ vs, ∀ x ∈ xs, v < x

/-- In numbers in order, those less than a given one come first. -/
theorem lt_iff_lt_countP {numbers : List Int} (h : numbers.Pairwise (· ≤ ·)) {n : Nat} {z x : Int}
    (hz : numbers[n]? = some z) : z < x ↔ n < numbers.countP (· < x) := by
  induction numbers generalizing n with
  | nil => cases hz
  | cons c cs ih =>
    obtain ⟨hc, hcs⟩ := List.pairwise_cons.1 h
    by_cases hlt : c < x
    · have hcount : (c :: cs).countP (· < x) = cs.countP (· < x) + 1 :=
        List.countP_cons_of_pos (by simpa using hlt)
      rw [hcount]
      cases n with
      | zero =>
        obtain rfl := Option.some.inj hz
        exact ⟨fun _ => Nat.succ_pos _, fun _ => hlt⟩
      | succ n =>
        rw [ih hcs hz]
        exact Nat.succ_lt_succ_iff.symm
    · have hge : ∀ w ∈ c :: cs, x ≤ w :=
        List.forall_mem_cons.2 ⟨not_lt.1 hlt, fun w hw => (not_lt.1 hlt).trans (hc w hw)⟩
      have hnone : (c :: cs).countP (· < x) = 0 :=
        List.countP_eq_zero.2 fun w hw => by simpa using hge w hw
      rw [hnone]
      exact ⟨fun hzx => absurd hzx (hge z (List.mem_of_getElem? hz)).not_gt,
        fun hn => absurd hn (Nat.not_lt_zero n)⟩

namespace Midway

variable {us xs vs ys placed : List Int} {x y : Int}

theorem start {left right : List Int} (hleft : left.Pairwise (· ≤ ·))
    (hright : right.Pairwise (· ≤ ·)) : Midway [] left [] right [] :=
  ⟨hleft, hright, .refl _, .nil, by simp, by simp, by simp⟩

theorem length_eq (h : Midway us xs vs ys placed) : placed.length = us.length + vs.length := by
  rw [h.perm.length_eq, List.length_append]

/-- The lesser number is taken from the first segment. -/
theorem takeLeft (h : Midway us (x :: xs) vs (y :: ys) placed) (hle : x ≤ y) :
    Midway (us ++ [x]) xs vs (y :: ys) (placed ++ [x]) where
  left_order := by simpa using h.left_order
  right_order := h.right_order
  perm := by
    refine (h.perm.append_right [x]).trans ?_
    simpa using (List.perm_append_singleton x vs).append_left us
  order := by
    refine List.pairwise_append.2 ⟨h.order, List.pairwise_singleton _ x, ?_⟩
    simpa using fun p hp => h.le_left p hp x List.mem_cons_self
  le_left := by
    obtain ⟨-, hxs, -⟩ := List.pairwise_append.1 h.left_order
    refine List.forall_mem_append.2 ⟨fun p hp z hz => h.le_left p hp z (.tail x hz), ?_⟩
    simpa using (List.pairwise_cons.1 hxs).1
  le_right := by
    obtain ⟨-, hys, -⟩ := List.pairwise_append.1 h.right_order
    refine List.forall_mem_append.2 ⟨h.le_right, ?_⟩
    simpa using ⟨hle, fun z hz => hle.trans ((List.pairwise_cons.1 hys).1 z hz)⟩
  right_lt := fun v hv z hz => h.right_lt v hv z (.tail x hz)

/-- The lesser number is taken from the second segment. -/
theorem takeRight (h : Midway us (x :: xs) vs (y :: ys) placed) (hlt : y < x) :
    Midway us (x :: xs) (vs ++ [y]) ys (placed ++ [y]) where
  left_order := h.left_order
  right_order := by simpa using h.right_order
  perm := by
    refine (h.perm.append_right [y]).trans ?_
    rw [List.append_assoc]
  order := by
    refine List.pairwise_append.2 ⟨h.order, List.pairwise_singleton _ y, ?_⟩
    simpa using fun p hp => h.le_right p hp y List.mem_cons_self
  le_left := by
    obtain ⟨-, hxs, -⟩ := List.pairwise_append.1 h.left_order
    refine List.forall_mem_append.2 ⟨h.le_left, ?_⟩
    simpa using ⟨hlt.le, fun z hz => hlt.le.trans ((List.pairwise_cons.1 hxs).1 z hz)⟩
  le_right := by
    obtain ⟨-, hys, -⟩ := List.pairwise_append.1 h.right_order
    refine List.forall_mem_append.2 ⟨fun p hp z hz => h.le_right p hp z (.tail y hz), ?_⟩
    simpa using (List.pairwise_cons.1 hys).1
  right_lt := by
    -- Equal numbers are taken from the first segment, so that `y` is really less.
    obtain ⟨-, hxs, -⟩ := List.pairwise_append.1 h.left_order
    refine List.forall_mem_append.2 ⟨h.right_lt, ?_⟩
    simpa using ⟨hlt, fun z hz => hlt.trans_le ((List.pairwise_cons.1 hxs).1 z hz)⟩

/-- How many of the placed numbers are less than the next one of the first segment. -/
theorem countP_placed (h : Midway us (x :: xs) vs ys placed) :
    placed.countP (· < x) + us.count x = us.length + vs.length := by
  -- Of the second segment all placed numbers are less, of the first one all that are not equal.
  have hright : vs.countP (· < x) = vs.length :=
    List.countP_eq_length.2 fun v hv => decide_eq_true (h.right_lt v hv x List.mem_cons_self)
  have hleft : us.countP (· < x) + us.count x = us.length := by
    have hle : ∀ u ∈ us, u ≤ x := fun u hu =>
      h.le_left u (h.perm.mem_iff.2 (List.mem_append_left vs hu)) x List.mem_cons_self
    have hequal : us.count x = us.countP (fun u => decide ¬decide (u < x) = true) := by
      refine List.countP_congr fun u hu => ?_
      have := hle u hu
      simp only [beq_iff_eq, decide_eq_true_eq, not_lt]
      omega
    rw [hequal]
    exact (List.length_eq_countP_add_countP _).symm
  rw [h.perm.countP_eq, List.countP_append, hright]
  omega

/-- At the position from which the next number of the first segment was read there is now a number
that is no greater. It is the same exactly if as many numbers equal to it have been placed from
the first segment as numbers at all from the second one, or more. -/
theorem exists_shown (h : Midway us (x :: xs) vs ys placed) (rest : List Int) :
    ∃ z, (placed ++ (us ++ x :: rest).drop placed.length)[us.length]? = some z ∧ z ≤ x ∧
      (z = x ↔ vs.length ≤ us.count x) := by
  have hlength := h.length_eq
  rcases Nat.eq_zero_or_pos vs.length with hzero | hpos
  · rw [hzero, Nat.add_zero] at hlength
    refine ⟨x, ?_, le_rfl, by simp [hzero]⟩
    rw [List.getElem?_append_right hlength.le, hlength, List.drop_left, Nat.sub_self]
    rfl
  · -- The position has been written over. As the placed numbers are in order, it is enough to
    -- count those less than `x`.
    have hlt : us.length < placed.length := by omega
    obtain ⟨z, hz⟩ : ∃ z, placed[us.length]? = some z := ⟨_, List.getElem?_eq_getElem hlt⟩
    have hle : z ≤ x := h.le_left z (List.mem_of_getElem? hz) x List.mem_cons_self
    refine ⟨z, by rw [List.getElem?_append_left hlt, hz], hle, ?_⟩
    have hcount := h.countP_placed
    have hless := lt_iff_lt_countP h.order hz (x := x)
    constructor
    · rintro rfl
      have := mt hless.2 (lt_irrefl z)
      omega
    · intro hmany
      refine le_antisymm hle (not_lt.1 fun hzx => ?_)
      have := hless.1 hzx
      omega

end Midway

/-! ### Comparisons -/

/-- Two comparisons with the same second number are worded alike only if they have the same first
number. -/
theorem comparisonWords_left_inj {link : Text} {x y z : Int} :
    comparisonWords link x y = comparisonWords link z y ↔ x = z := by
  refine ⟨fun h => ?_, fun h => by rw [h]⟩
  have hfirst := List.append_cancel_right (List.append_cancel_right h)
  exact Text.ofInt_injective (List.append_cancel_left hfirst)

/-- The words with which a merge of two segments begins. -/
def mergingWords (left right : List Int) : Text :=
  "Merging [".toList ++ listing left ++ "] and [".toList ++ listing right ++ "]".toList

namespace Moment

/-- The words name the numbers that the array has at the positions `a` and `b`. -/
def NamesPlaces (a b : Nat) (moment : Moment) : Prop :=
  ∃ x y, moment.array[a]? = some x ∧ moment.array[b]? = some y ∧
    moment.description = comparisonWords " and ".toList x y

/-- The moment compares the positions `a` and `b` in a merge of `left` and `right`, which stood
behind `before`. Of the segments `us` and `vs` have been placed, and the words name the next
numbers `x` and `y`. The array still has `y` at `b`. At `a` it has a number that is no greater
than `x`, and `x` itself exactly if there are as many numbers equal to `x` in `us` as numbers
in `vs`, or more. -/
def ComparesNext (before left right : List Int) (a b : Nat) (moment : Moment) : Prop :=
  ∃ us x xs vs y ys, left = us ++ x :: xs ∧ right = vs ++ y :: ys ∧
    a = before.length + us.length ∧ b = before.length + left.length + vs.length ∧
    moment.description = comparisonWords " and ".toList x y ∧ moment.array[b]? = some y ∧
    (∃ z ≤ x, moment.array[a]? = some z) ∧
    (moment.NamesPlaces a b ↔ vs.length ≤ us.count x)

/-- The moment is one of the loop that merges `left` and `right`: it places a number or compares
two. -/
def OfMerge (before left right : List Int) (moment : Moment) : Prop :=
  moment.comparing = [] ∧ (∃ z, moment.description = "Placed ".toList ++ Text.ofInt z) ∨
    ∃ a b, moment.comparing = [a, b] ∧ moment.ComparesNext before left right a b

theorem OfMerge.comparesNext {before left right : List Int} {moment : Moment} {a b : Nat}
    (h : moment.OfMerge before left right) (hab : moment.comparing = [a, b]) :
    moment.ComparesNext before left right a b := by
  rcases h with ⟨hnone, -⟩ | ⟨i, j, hij, hcompares⟩
  · simp [hnone] at hab
  · obtain ⟨rfl, rfl⟩ : i = a ∧ j = b := by simpa [hij] using hab
    exact hcompares

end Moment

section Loop

variable {us xs vs ys placed before behind array : List Int} {x y : Int} {work : Performance}

theorem getElem?_overwritten (before placed numbers : List Int) {n : Nat} (h : placed.length ≤ n) :
    (before ++ (placed ++ numbers.drop placed.length))[before.length + n]? = numbers[n]? := by
  rw [List.getElem?_append_right (Nat.le_add_right _ _), Nat.add_sub_cancel_left,
    List.getElem?_append_right h, List.getElem?_drop, Nat.add_sub_cancel' h]

/-- The next number is placed behind the others. -/
theorem set_overwritten (before : List Int) {placed numbers : List Int}
    (h : placed.length < numbers.length) (value : Int) :
    (before ++ (placed ++ numbers.drop placed.length)).set (before.length + placed.length) value =
      before ++ (placed ++ [value] ++ numbers.drop (placed ++ [value]).length) := by
  obtain ⟨first, others, hdrop⟩ :=
    List.exists_cons_of_ne_nil (mt List.drop_eq_nil_iff.1 h.not_ge)
  have hothers : numbers.drop (placed ++ [value]).length = others := by
    rw [List.length_append, ← List.drop_drop, hdrop]
    rfl
  rw [hothers, hdrop]
  simp

/-- A comparison of the next numbers of both segments. -/
theorem Midway.comparesNext (h : Midway us (x :: xs) vs (y :: ys) placed) {a b : Nat}
    {moment : Moment} (hwords : moment.description = comparisonWords " and ".toList x y)
    (harray : moment.array = before ++
      (placed ++ (us ++ x :: xs ++ (vs ++ y :: ys ++ behind)).drop placed.length))
    (ha : a = before.length + us.length)
    (hb : b = before.length + (us ++ x :: xs).length + vs.length) :
    moment.ComparesNext before (us ++ x :: xs) (vs ++ y :: ys) a b := by
  have hlength := h.length_eq
  obtain ⟨z, hshown, hle, hsame⟩ := h.exists_shown (xs ++ (vs ++ y :: ys ++ behind))
  have hz : moment.array[a]? = some z := by
    rw [harray, ha, List.getElem?_append_right (Nat.le_add_right _ _), Nat.add_sub_cancel_left]
    simpa using hshown
  have hy : moment.array[b]? = some y := by
    rw [harray, hb, Nat.add_assoc, getElem?_overwritten _ _ _ (by simp; omega),
      List.getElem?_append_right (Nat.le_add_right _ _), Nat.add_sub_cancel_left, List.append_assoc,
      List.getElem?_append_right le_rfl, Nat.sub_self]
    rfl
  have hnames : moment.NamesPlaces a b ↔ z = x := by
    constructor
    · rintro ⟨z', y', hz', hy', hwords'⟩
      obtain rfl := Option.some.inj (hz.symm.trans hz')
      obtain rfl := Option.some.inj (hy.symm.trans hy')
      exact (comparisonWords_left_inj.1 (hwords.symm.trans hwords')).symm
    · rintro rfl
      exact ⟨z, y, hz, hy, hwords⟩
  exact ⟨us, x, xs, vs, y, ys, rfl, rfl, ha, hb, hwords, hy, ⟨z, hle, hz⟩, hnames.trans hsame⟩

/-- All moments of the loop are of the merge that it belongs to. -/
theorem mergeLoop_ofMerge (before behind : List Int) {k i j : Nat}
    (hmidway : Midway us xs vs ys placed) (hk : k = before.length + placed.length)
    (hi : i = before.length + us.length)
    (hj : j = before.length + (us ++ xs).length + vs.length)
    (harray : array =
      before ++ (placed ++ (us ++ xs ++ (vs ++ ys ++ behind)).drop placed.length))
    (h : mergeLoop k i j xs ys array = some work) :
    ∀ moment ∈ work.moments, moment.OfMerge before (us ++ xs) (vs ++ ys) := by
  -- Each round moves one number from what is left to what is placed, and keeps both segments.
  induction k, i, j, xs, ys, array using mergeLoop.induct generalizing us vs placed work with
  | case1 k i j x xs y ys array ihLeft ihRight =>
    obtain ⟨value, rest, rfl, hstep⟩ := exists_of_mergeLoop h
    refine List.forall_mem_cons.2 ⟨.inr ⟨i, j, rfl, ?_⟩,
      List.forall_mem_cons.2 ⟨.inl ⟨rfl, value, rfl⟩, ?_⟩⟩
    · exact hmidway.comparesNext rfl harray hi hj
    have hnext : k + 1 = before.length + (placed ++ [value]).length := by
      rw [hk, List.length_append, List.length_singleton, Nat.add_assoc]
    have hwritten : array.set k value = before ++ (placed ++ [value] ++
        (us ++ x :: xs ++ (vs ++ y :: ys ++ behind)).drop (placed ++ [value]).length) := by
      rw [harray, hk]
      refine set_overwritten before ?_ value
      simp only [hmidway.length_eq, List.length_append, List.length_cons]
      omega
    rcases hstep with ⟨hle, rfl, hrest⟩ | ⟨hlt, rfl, hrest⟩
    · have hparts : us ++ [value] ++ xs = us ++ value :: xs := by simp
      rw [← hparts]
      exact ihLeft _ (hmidway.takeLeft hle) hnext (by simp [hi, Nat.add_assoc])
        (by rw [hparts, hj]) (by rw [hparts, hwritten]) hrest
    · have hparts : vs ++ [value] ++ ys = vs ++ value :: ys := by simp
      rw [← hparts]
      exact ihRight _ (hmidway.takeRight hlt) hnext hi (by simp [hj, Nat.add_assoc])
        (by rw [hparts, hwritten]) hrest
  | case2 k i j xs ys array hend =>
    rw [mergeLoop] at h
    · obtain ⟨result, -, rfl⟩ := Option.map_eq_some_iff.1 h
      simp [Performance.idle]
    · exact hend

end Loop

/-! ### The sort -/

/-- A moment that compares two positions follows the start of the merge that it belongs to, with
only moments of this merge between them. -/
def ComparesInMerge (front : List Moment) (moment : Moment) (_rear : List Moment) : Prop :=
  ∀ a b, moment.comparing = [a, b] → ∃ earlier start loop before left right behind,
    front = earlier ++ start :: loop ∧ start.description = mergingWords left right ∧
    start.array = before ++ (left ++ right ++ behind) ∧
    (∀ other ∈ loop, other.OfMerge before left right) ∧
    moment.ComparesNext before left right a b

theorem lasting_comparesInMerge : Lasting ComparesInMerge := by
  intro others front moment rear behind h a b hab
  obtain ⟨earlier, start, loop, before, left, right, back, rfl, hstart⟩ := h a b hab
  exact ⟨others ++ earlier, start, loop, before, left, right, back, by simp, hstart⟩

theorem comparesInMerge_of_comparing_eq_nil {moment : Moment} (h : moment.comparing = [])
    (front rear : List Moment) : ComparesInMerge front moment rear := by
  intro a b hab
  simp [h] at hab

section Segments

variable {before left right behind array : List Int} {low middle high : Nat} {work : Performance}

/-- The comparisons of a merge of two segments in order. -/
theorem mergeSegments_comparesInMerge (hmiddle : middle + 1 = before.length + left.length)
    (hhigh : high + 1 = before.length + left.length + right.length)
    (hleftOrder : left.Pairwise (· ≤ ·)) (hrightOrder : right.Pairwise (· ≤ ·))
    (h : mergeSegments before.length middle high (before ++ (left ++ right ++ behind)) =
      some work) : Throughout ComparesInMerge work.moments := by
  obtain ⟨hleft, hright⟩ := segment?_neighbours before left right behind hmiddle hhigh
  simp only [mergeSegments, hleft, hright, Option.bind_eq_bind, Option.bind_some] at h
  obtain ⟨loop, hloop, h⟩ := Option.bind_eq_some_iff.1 h
  obtain ⟨merged, -, h⟩ := Option.bind_eq_some_iff.1 h
  obtain rfl := Option.some.inj h
  have hall : ∀ moment ∈ loop.moments, moment.OfMerge before left right :=
    mergeLoop_ofMerge before behind (Midway.start hleftOrder hrightOrder) rfl rfl
      (by simpa using hmiddle) (by simp) hloop
  refine throughout_round (comparesInMerge_of_comparing_eq_nil rfl [])
    (fun front => comparesInMerge_of_comparing_eq_nil rfl front []) ?_
  intro front moment rear (hsplit : loop.moments = _) a b hab
  rw [hsplit, List.forall_mem_append, List.forall_mem_cons] at hall
  obtain ⟨hfront, hmoment, -⟩ := hall
  exact ⟨[], _, front, before, left, right, behind, rfl, rfl, rfl, hfront,
    hmoment.comparesNext hab⟩

/-- Merge sort of more than one number sorts both halves and merges them. -/
theorem exists_of_mergeSegment (hlong : low < high) (h : mergeSegment low high array = some work) :
    ∃ division front rear merging, division.comparing = [] ∧
      mergeSegment low ((low + high) / 2) array = some front ∧
      mergeSegment ((low + high) / 2 + 1) high front.array = some rear ∧
      mergeSegments low ((low + high) / 2) high rear.array = some merging ∧
      work.moments = [division] ++ front.moments ++ rear.moments ++ merging.moments := by
  rw [mergeSegment, dif_pos hlong] at h
  obtain ⟨front, hfront, h⟩ := Option.bind_eq_some_iff.1 h
  obtain ⟨both, hboth, h⟩ := Option.bind_eq_some_iff.1 h
  obtain ⟨rear, hrear, rfl⟩ := Option.map_eq_some_iff.1 hboth
  obtain ⟨merging, hmerging, rfl⟩ := Option.map_eq_some_iff.1 h
  exact ⟨_, front, rear, merging, rfl, hfront, hrear, hmerging, rfl⟩

/-- The comparisons of a merge sort of a segment. -/
theorem mergeSegment_comparesInMerge (before segment behind : List Int)
    (hhigh : high + 1 = before.length + segment.length)
    (h : mergeSegment before.length high (before ++ (segment ++ behind)) = some work) :
    Throughout ComparesInMerge work.moments := by
  -- On the length: a merge needs both halves in order, which their own sorts provide.
  induction hsize : segment.length using Nat.strong_induction_on
    generalizing before segment behind high work with
  | _ size ih =>
  by_cases hlong : before.length < high
  · obtain ⟨division, front, rear, merging, hdivision, hfront, hrear, hmerging, hmoments⟩ :=
      exists_of_mergeSegment hlong h
    obtain ⟨first, second, rfl, hfirst⟩ := exists_halves segment hhigh hlong
    rw [List.length_append] at hhigh hsize
    rw [List.append_assoc] at hfront
    obtain ⟨left, hleftPerm, hleftOrder, _, hleft⟩ :=
      mergeSegment_leaves before first (second ++ behind) hfirst
    obtain rfl := Option.some.inj (hleft.symm.trans hfront)
    have hlow : (before.length + high) / 2 + 1 = (before ++ left).length := by
      rw [List.length_append, hleftPerm.length_eq, hfirst]
    have hlast : high + 1 = (before ++ left).length + second.length := by omega
    rw [hlow, ← List.append_assoc] at hrear
    obtain ⟨right, hrightPerm, hrightOrder, _, hright⟩ :=
      mergeSegment_leaves (before ++ left) second behind hlast
    obtain rfl := Option.some.inj (hright.symm.trans hrear)
    have hparts : before ++ left ++ (right ++ behind) = before ++ (left ++ right ++ behind) := by
      simp
    rw [hparts] at hmerging
    have hmerge := mergeSegments_comparesInMerge (by rw [hlow, List.length_append])
      (by rw [hlast, List.length_append, hrightPerm.length_eq]) hleftOrder hrightOrder hmerging
    have hstart : Throughout ComparesInMerge [division] :=
      throughout_singleton (comparesInMerge_of_comparing_eq_nil hdivision [] [])
    rw [hmoments]
    exact ((hstart.append lasting_comparesInMerge
      (ih _ (by omega) before first _ hfirst hfront rfl)).append lasting_comparesInMerge
      (ih _ (by omega) (before ++ left) second behind hlast hrear rfl)).append
      lasting_comparesInMerge hmerge
  · rw [mergeSegment, dif_neg hlong] at h
    obtain rfl := Option.some.inj h
    intro front moment rear hnil
    simp [Performance.idle] at hnil

end Segments

/-- The comparisons of a merge sort. -/
theorem mergeSort_comparesInMerge {input : List Int} {work : Performance}
    (h : mergeSort input = some work) : Throughout ComparesInMerge work.moments := by
  obtain ⟨segment, hsegment, h⟩ := Option.bind_eq_some_iff.1 h
  obtain rfl := Option.some.inj h
  refine Throughout.append lasting_comparesInMerge ?_
    (throughout_singleton (comparesInMerge_of_comparing_eq_nil rfl [] []))
  cases input with
  | nil =>
    obtain rfl := Option.some.inj hsegment
    intro front moment rear hnil
    simp [Performance.idle] at hnil
  | cons x xs =>
    have hlast : xs.length + 1 = ([] : List Int).length + (x :: xs).length := by simp
    refine mergeSegment_comparesInMerge [] (x :: xs) [] hlast ?_
    simpa using hsegment

/-- What a comparison of merge sort highlights. The step belongs to the last merge that started
before it. It names the next numbers `x` and `y` of both segments, and highlights the positions
from which they were read. The array has `y` at its position; it has `x` at its own exactly if
as many numbers equal to `x` have been placed from the first segment as numbers from the second
one, or more. -/
theorem merge_comparison (input : List Int) (front : List Step) (step : Step) (rear : List Step)
    (h : trace .merge input = front ++ step :: rear) (a b : Nat) (hab : step.comparing = [a, b]) :
    ∃ earlier start loop before us x xs vs y ys behind,
      front.map Step.toMoment = earlier ++ start :: loop ∧
      start.description = mergingWords (us ++ x :: xs) (vs ++ y :: ys) ∧
      start.array = before ++ (us ++ x :: xs ++ (vs ++ y :: ys) ++ behind) ∧
      (∀ moment ∈ loop, moment.OfMerge before (us ++ x :: xs) (vs ++ y :: ys)) ∧
      a = before.length + us.length ∧ b = before.length + (us ++ x :: xs).length + vs.length ∧
      step.description = comparisonWords " and ".toList x y ∧ step.array[b]? = some y ∧
      (∃ z ≤ x, step.array[a]? = some z) ∧
      (step.NamesPlaces a b ↔ vs.length ≤ us.count x) := by
  have hall : ∀ work, perform .merge input = some work →
      Throughout ComparesInMerge work.moments := fun work hwork => mergeSort_comparesInMerge hwork
  obtain ⟨earlier, start, loop, before, left, right, behind, hfront, hwords, harray, hloop,
    us, x, xs, vs, y, ys, rfl, rfl, hnext⟩ := throughout_trace hall h a b hab
  exact ⟨earlier, start, loop, before, us, x, xs, vs, y, ys, behind, hfront, hwords, harray, hloop,
    hnext⟩

/-- When `2` and `4` are compared here, the first position has been written over with `1`. -/
theorem merge_comparison_overwritten :
    let step : Step :=
      { array := [1, 3, 1, 4], comparing := [0, 3], description := "Comparing 2 and 4".toList
        comparisons := 4, swaps := 0 }
    trace .merge [2, 3, 1, 4] =
        (trace .merge [2, 3, 1, 4]).take 14 ++ step :: (trace .merge [2, 3, 1, 4]).drop 15 ∧
      step.comparing = [0, 3] ∧
      ∃ start ∈ ((trace .merge [2, 3, 1, 4]).take 14).map Step.toMoment, ∃ x xs vs y ys,
        start.description = mergingWords (x :: xs) (vs ++ y :: ys) ∧
        3 = (x :: xs).length + vs.length ∧
        step.description = comparisonWords " and ".toList x y ∧ step.array[3]? = some y ∧
        (step.NamesPlaces 0 3 ↔ vs = []) := by
  intro step
  have hsplit : trace .merge [2, 3, 1, 4] =
      (trace .merge [2, 3, 1, 4]).take 14 ++ step :: (trace .merge [2, 3, 1, 4]).drop 15 := by
    cbv
  refine ⟨hsplit, rfl, ?_⟩
  obtain ⟨earlier, start, loop, before, us, x, xs, vs, y, ys, behind, hfront, hwords, -, -, ha, hb,
    hstep, hy, -, hnames⟩ := merge_comparison [2, 3, 1, 4] _ step _ hsplit 0 3 rfl
  obtain ⟨rfl, rfl⟩ : before = [] ∧ us = [] := by simpa using ha.symm
  refine ⟨start, by simp [hfront], x, xs, vs, y, ys, hwords, by simpa using hb, hstep, hy, ?_⟩
  simpa using hnames

/-- The words of a comparison do not in general name the numbers at its positions. -/
theorem not_namesPlaces : ¬∀ input, ∀ step ∈ trace .merge input, ∀ a b,
    step.comparing = [a, b] → step.NamesPlaces a b := by
  intro h
  have hstep : (trace .merge [2, 3, 1, 4])[14]? = some
      { array := [1, 3, 1, 4], comparing := [0, 3], description := "Comparing 2 and 4".toList
        comparisons := 4, swaps := 0 } := by
    cbv
  obtain ⟨x, y, hx, hy, hwords⟩ := h _ _ (List.mem_of_getElem? hstep) 0 3 rfl
  obtain rfl : 1 = x := Option.some.inj hx
  obtain rfl : 4 = y := Option.some.inj hy
  exact absurd hwords (by decide)

end Stepwise.Sorting
