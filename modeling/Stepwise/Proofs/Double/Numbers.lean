import Mathlib.Algebra.Order.Ring.Nat
import Stepwise.Double.Parts

/-!
# Doubles that are numbers

A double that is not `NaN` equals itself, and comparing two doubles the other way round gives
the opposite outcome. Products and quotients keep clear of `NaN` when the second operand is
proper: neither zero nor infinite. The powers of ten in the range of doubles are proper.

## Main definitions

* `Stepwise.Double.isProper` — a finite double other than zero.

## Main results

* `Stepwise.Double.beq_self`, `isNaN_of_beq` — the doubles that equal themselves are numbers.
* `Stepwise.Double.beq_comm`, `le_iff_lt_or_beq` — equality and the two orders of doubles.
* `Stepwise.Double.isNaN_mul`, `isNaN_div` — products and quotients by proper doubles.
* `Stepwise.Double.isProper_powerOfTen` — powers of ten are proper.
-/

namespace Stepwise.Double

open Float.Model UnpackedFloat

/-! ### Comparing a number with itself -/

/-- An unpacked number compares equal to itself. -/
private theorem compare_self {f : UnpackedFloat} (h : f.isNaN = false) :
    f.compare f = some .eq := by
  match f with
  | .notANumber => cases h
  | .infinity .negative | .infinity .positive | .zero _ => rfl
  | .finite .negative m e _ =>
    change some ((compare e e).then (compare m m)).swap = some .eq
    rw [Std.compare_self, Std.compare_self]
    rfl
  | .finite .positive m e _ =>
    change some ((compare e e).then (compare m m)) = some .eq
    rw [Std.compare_self, Std.compare_self]
    rfl

/-- A double that is a number equals itself. -/
theorem beq_self {x : Float} (h : x.isNaN = false) : (x == x) = true := by
  change (x.toModel.unpack.compare x.toModel.unpack == some .eq) = true
  rw [compare_self h]
  rfl

/-! ### Comparing two numbers -/

/-- The other way round, two unpacked floats compare as the opposite. -/
private theorem compare_swap (f g : UnpackedFloat) :
    g.compare f = (f.compare g).map Ordering.swap := by
  -- Only finite numbers of the same sign are told apart by their digits.
  have hdigits : ∀ (e e' : Int) (m m' : Nat),
      (compare e' e).then (compare m' m) = ((compare e e').then (compare m m')).swap := by
    intro e e' m m'
    rw [Ordering.swap_then, ← Std.OrientedOrd.eq_swap (a := e'),
      ← Std.OrientedOrd.eq_swap (a := m')]
  match f, g with
  | .finite .positive m e _, .finite .positive m' e' _ =>
    exact congrArg some (hdigits e e' m m')
  | .finite .negative m e _, .finite .negative m' e' _ =>
    exact congrArg (fun order => some order.swap) (hdigits e e' m m')
  | .finite .positive _ _ _, .finite .negative _ _ _
  | .finite .negative _ _ _, .finite .positive _ _ _ => rfl
  | .notANumber, .notANumber => rfl
  | .notANumber, .infinity s | .infinity s, .notANumber
  | .notANumber, .zero s | .zero s, .notANumber
  | .notANumber, .finite s _ _ _ | .finite s _ _ _, .notANumber => cases s <;> rfl
  | .infinity s, .infinity s' | .infinity s, .zero s' | .zero s, .infinity s'
  | .zero s, .zero s' | .infinity s, .finite s' _ _ _ | .finite s' _ _ _, .infinity s
  | .zero s, .finite s' _ _ _ | .finite s' _ _ _, .zero s => cases s <;> cases s' <;> rfl

/-- Equality of doubles does not depend on their order. -/
theorem beq_comm (x y : Float) : (x == y) = (y == x) := by
  change (x.toModel.unpack.compare y.toModel.unpack == some .eq) =
    (y.toModel.unpack.compare x.toModel.unpack == some .eq)
  rw [compare_swap x.toModel.unpack]
  rcases x.toModel.unpack.compare y.toModel.unpack with _ | (_ | _ | _) <;> rfl

/-- A double that equals something is a number. -/
theorem isNaN_of_beq {x y : Float} (h : (x == y) = true) : x.isNaN = false := by
  change (x.toModel.unpack.compare y.toModel.unpack == some .eq) = true at h
  change x.toModel.unpack.isNaN = false
  cases hunpack : x.toModel.unpack with
  | notANumber => rw [hunpack] at h; cases h
  | infinity | zero | finite => rfl

/-- A double is at most another one if it is less or if both are equal. -/
theorem le_iff_lt_or_beq (x y : Float) : x ≤ y ↔ x < y ∨ (x == y) = true := by
  have hle : x ≤ y ↔ (x.toModel.unpack.compare y.toModel.unpack).any Ordering.isLE = true :=
    decide_eq_true_iff
  have hlt : x < y ↔ (x.toModel.unpack.compare y.toModel.unpack == some .lt) = true :=
    decide_eq_true_iff
  have hbeq : (x == y) = (x.toModel.unpack.compare y.toModel.unpack == some .eq) := rfl
  rw [hle, hlt, hbeq]
  rcases x.toModel.unpack.compare y.toModel.unpack with _ | (_ | _ | _) <;> decide

/-! ### Packing -/

/-- A finite double other than zero. -/
def isProper (x : Float) : Bool :=
  match x.toModel.unpack with
  | .finite .. => true
  | _ => false

/-- Proper doubles are those that unpack to a mantissa and an exponent. -/
private theorem isProper_iff {x : Float} :
    isProper x = true ↔ ∃ s m e hm, x.toModel.unpack = .finite s m e hm := by
  cases hunpack : x.toModel.unpack with
  | finite s m e hm =>
    refine ⟨fun _ => ⟨s, m, e, hm, rfl⟩, fun _ => ?_⟩
    rw [isProper, hunpack]
  | infinity | notANumber | zero =>
    refine ⟨fun h => ?_, ?_⟩
    · rw [isProper, hunpack] at h
      cases h
    · rintro ⟨s, m, e, hm, heq⟩
      cases heq

/-- Bits whose exponent is not the greatest one are not `NaN`. -/
private theorem isNaN_unpack {bits : BitVec 64}
    (h : @unpackExponent Format.binary64 bits ≠ -1#11) :
    (UnpackedFloat.unpack Format.binary64 bits).isNaN = false := by
  unfold UnpackedFloat.unpack
  dsimp only
  rw [if_neg h]
  by_cases hleast : @unpackExponent Format.binary64 bits = 0#11
  · rw [if_pos hleast]
    by_cases hmantissa : @unpackMantissa Format.binary64 bits = 0#52
    · rw [dif_pos hmantissa]
      rfl
    · rw [dif_neg hmantissa]
      rfl
  · rw [if_neg hleast]
    rfl

private theorem exponent_ne {biased : Nat} (h : biased + 1 < 2048) :
    BitVec.ofNat 11 biased ≠ -1#11 := by
  intro heq
  have hnat := congrArg BitVec.toNat heq
  rw [BitVec.toNat_ofNat, Nat.mod_eq_of_lt (by omega)] at hnat
  have hgreatest : (-1#11).toNat = 2047 := by decide
  omega

/-- Only `NaN` is packed to `NaN`. -/
private theorem isNaN_unpack_pack {f : UnpackedFloat} (h : f.isNaN = false) :
    (Float.Model.pack f).unpack.isNaN = false := by
  change (UnpackedFloat.unpack Format.binary64 (UnpackedFloat.pack Format.binary64 f)).isNaN = false
  fun_cases UnpackedFloat.pack with
  | case1 => cases h
  | case2 s => cases s <;> decide
  | case3 s => cases s <;> decide
  | case4 s => cases s <;> decide
  | case5 s m e _ _ biased hsmall _ =>
    refine isNaN_unpack ?_
    rw [unpackExponent_packComponents]
    exact exponent_ne (Nat.not_le.1 hsmall)
  | case6 s =>
    refine isNaN_unpack ?_
    rw [unpackExponent_packComponents]
    decide

/-- Bits whose exponent is neither the least nor the greatest one are proper. -/
private theorem isProper_of_exponent {x : Float} {bits : BitVec 64}
    (hx : x.toModel.unpack = UnpackedFloat.unpack Format.binary64 bits)
    (hgreatest : @unpackExponent Format.binary64 bits ≠ -1#11)
    (hleast : @unpackExponent Format.binary64 bits ≠ 0#11) : isProper x = true := by
  unfold UnpackedFloat.unpack at hx
  dsimp only at hx
  rw [if_neg hgreatest, if_neg hleast] at hx
  exact isProper_iff.2 ⟨_, _, _, _, hx⟩

/-- A normal float is packed to a proper double. -/
private theorem isProper_of_normal {x : Float} {s : Sign} {m : Nat} {e : Int} {hm : 0 < m}
    (hx : x.toModel = Float.Model.pack (.finite s m e hm)) (hlog : m.log2 = 52)
    (hlow : -1074 ≤ e) (hhigh : e ≤ 971) : isProper x = true := by
  obtain ⟨biased, heq⟩ : ∃ biased, (e + 1023 + 52).toNat = biased := ⟨_, rfl⟩
  have hsmall : biased + 1 < 2048 := by omega
  have hpack : UnpackedFloat.pack Format.binary64 (.finite s m e hm) =
      if 2048 ≤ (e + 1023 + 52).toNat + 1 then packedInfinity Format.binary64 s
      else if m.log2 + 1 = 53 then
        packComponents Format.binary64 s (BitVec.ofNat 11 (e + 1023 + 52).toNat)
          (BitVec.ofNat 52 m)
      else packComponents Format.binary64 s 0#11 (BitVec.ofNat 52 m) := rfl
  rw [heq, if_neg (Nat.not_le.2 hsmall), if_pos (by omega)] at hpack
  -- Neither end of the exponent field is reached, so unpacking finds a mantissa again.
  have hunpack : x.toModel.unpack =
      UnpackedFloat.unpack Format.binary64
        (packComponents Format.binary64 s (BitVec.ofNat 11 biased) (BitVec.ofNat 52 m)) := by
    rw [hx, ← hpack]
    rfl
  refine isProper_of_exponent hunpack ?_ ?_
  · rw [unpackExponent_packComponents]
    exact exponent_ne hsmall
  · rw [unpackExponent_packComponents]
    intro hzero
    have hnat := congrArg BitVec.toNat hzero
    rw [BitVec.toNat_ofNat, Nat.mod_eq_of_lt (by omega)] at hnat
    change biased = 0 at hnat
    omega

/-! ### Rounding -/

/-- Rounding gives zero or a finite float. -/
private theorem isNaN_roundWithAccuracy (s : Sign) (m : Nat) (e : Int) (accuracy : Accuracy) :
    (roundWithAccuracy Format.binary64 s m e accuracy).isNaN = false := by
  let first := shiftToTargetExponent Format.binary64 m e accuracy
  let last := shiftToTargetExponent Format.binary64 first.1.roundedMantissa first.2 .exact
  by_cases hzero : last.1.mantissa = 0
  · have hround : roundWithAccuracy Format.binary64 s m e accuracy = .zero s := dif_pos hzero
    rw [hround]
    rfl
  · have hround : roundWithAccuracy Format.binary64 s m e accuracy =
        .finite s last.1.mantissa last.2 (Nat.pos_of_ne_zero hzero) := dif_neg hzero
    rw [hround]
    rfl

/-- Shifting divides the mantissa by a power of two. -/
private theorem mantissa_shiftRight (em : ExtendedMantissa) (k : Nat) :
    (em >>> k).mantissa = em.mantissa / 2 ^ k := by
  induction k with
  | zero => exact (Nat.div_one _).symm
  | succ k ih =>
    change (em >>> k).mantissa / 2 = _
    rw [ih, Nat.div_div_eq_div_mul, Nat.pow_succ]

/-- Rounding adds at most one to the mantissa. -/
private theorem roundedMantissa_bounds (em : ExtendedMantissa) :
    em.mantissa ≤ em.roundedMantissa ∧ em.roundedMantissa ≤ em.mantissa + 1 := by
  unfold ExtendedMantissa.roundedMantissa
  cases em.accuracy with
  | exact => exact ⟨Nat.le_refl _, Nat.le_succ _⟩
  | inexact ordering =>
    cases ordering with
    | lt => exact ⟨Nat.le_refl _, Nat.le_succ _⟩
    | eq =>
      change em.mantissa ≤ em.mantissa + em.mantissa % 2 ∧ em.mantissa + em.mantissa % 2 ≤ _
      omega
    | gt => exact ⟨Nat.le_succ _, Nat.le_refl _⟩

/-- How many binary digits a mantissa loses on its way to the target exponent. -/
private def shift (m : Nat) (e : Int) : Nat :=
  (max ((m.log2 : Int) + e - 52) (-1074) - e).toNat

/-- Shifting to the target exponent drops binary digits of the mantissa. -/
private theorem shiftToTargetExponent_eq (m : Nat) (e : Int) (accuracy : Accuracy) :
    shiftToTargetExponent Format.binary64 m e accuracy =
      (ExtendedMantissa.ofMantissaAndAccuracy m accuracy >>> shift m e, e + shift m e) := by
  have htarget : Format.binary64.targetExponent (totalExponent m e) =
      max ((m.log2 : Int) + e - 52) (-1074) := by
    change max ((m.log2 : Int) + 1 + e - 53) (-1074) = _
    omega
  rw [shiftToTargetExponent, shiftToExponent, htarget]
  rfl

/-- The leading 53 binary digits of an integer. -/
private theorem leading_bounds {m : Nat} (hm : 52 ≤ m.log2) :
    2 ^ 52 ≤ m / 2 ^ (m.log2 - 52) ∧ m / 2 ^ (m.log2 - 52) < 2 ^ 53 := by
  have hne : m ≠ 0 := by
    rintro rfl
    exact absurd hm (by decide)
  have hlow := Nat.log2_self_le hne
  have hhigh := @Nat.lt_log2_self m
  constructor
  · rw [Nat.le_div_iff_mul_le (Nat.two_pow_pos _), ← Nat.pow_add, Nat.add_sub_of_le hm]
    exact hlow
  · rw [Nat.div_lt_iff_lt_mul (Nat.two_pow_pos _), ← Nat.pow_add]
    rwa [show 53 + (m.log2 - 52) = m.log2 + 1 by omega]

/-- After a carry one more shift is enough to have 53 binary digits again. -/
private theorem carry_bounds {r : Nat} {e : Int} (hlow : 2 ^ 52 ≤ r) (hhigh : r ≤ 2 ^ 53)
    (he : -1074 ≤ e) : shift r e ≤ 1 ∧ (r / 2 ^ shift r e).log2 = 52 := by
  unfold shift
  rcases Nat.lt_or_eq_of_le hhigh with hlt | rfl
  · have hlog : r.log2 = 52 := (Nat.log2_eq_iff (by omega)).2 ⟨hlow, hlt⟩
    have hshift : (max ((r.log2 : Int) + e - 52) (-1074) - e).toNat = 0 := by omega
    rw [hshift, Nat.pow_zero, Nat.div_one]
    exact ⟨Nat.zero_le 1, hlog⟩
  · have hlog : (2 ^ 53 : Nat).log2 = 53 := Nat.log2_two_pow
    have hshift : (max (((2 ^ 53 : Nat).log2 : Int) + e - 52) (-1074) - e).toNat = 1 := by omega
    rw [hshift]
    exact ⟨Nat.le_refl 1, by decide⟩

/-- An integer of at least 53 binary digits rounds to a normal float, whose exponent is at
most one above the one that the digits need. -/
private theorem roundWithAccuracy_normal (s : Sign) {m : Nat} {e : Int} (hm : 52 ≤ m.log2)
    (he : -1074 ≤ e) :
    ∃ m' e' hpos, roundWithAccuracy Format.binary64 s m e .exact = .finite s m' e' hpos ∧
      m'.log2 = 52 ∧ -1074 ≤ e' ∧ e' ≤ (m.log2 : Int) + e - 51 := by
  have hshift : shift m e = m.log2 - 52 := by
    unfold shift
    omega
  obtain ⟨hlow, hhigh⟩ := leading_bounds hm
  let first := shiftToTargetExponent Format.binary64 m e .exact
  have hfirst : first =
      (ExtendedMantissa.ofMantissaAndAccuracy m .exact >>> shift m e, e + shift m e) :=
    shiftToTargetExponent_eq m e .exact
  have hmantissa : first.1.mantissa = m / 2 ^ (m.log2 - 52) := by
    rw [hfirst, mantissa_shiftRight, hshift]
    rfl
  have hexponent : first.2 = (m.log2 : Int) + e - 52 := by
    rw [hfirst, hshift]
    change e + ((m.log2 - 52 : Nat) : Int) = _
    omega
  obtain ⟨hleast, hmost⟩ := roundedMantissa_bounds first.1
  rw [hmantissa] at hleast hmost
  obtain ⟨hcarry, hlog⟩ := carry_bounds (e := first.2) (Nat.le_trans hlow hleast)
    (Nat.le_trans hmost hhigh) (by omega)
  let last := shiftToTargetExponent Format.binary64 first.1.roundedMantissa first.2 .exact
  have hlast : last = (ExtendedMantissa.ofMantissaAndAccuracy first.1.roundedMantissa .exact >>>
      shift first.1.roundedMantissa first.2, first.2 + shift first.1.roundedMantissa first.2) :=
    shiftToTargetExponent_eq _ _ _
  have hlog' : last.1.mantissa.log2 = 52 := by
    rw [hlast, mantissa_shiftRight]
    exact hlog
  have hne : last.1.mantissa ≠ 0 := by
    intro hzero
    rw [hzero] at hlog'
    exact absurd hlog' (by decide)
  have hexponent' : last.2 = first.2 + shift first.1.roundedMantissa first.2 := by rw [hlast]
  exact ⟨last.1.mantissa, last.2, Nat.pos_of_ne_zero hne, dif_neg hne, hlog', by omega, by omega⟩

/-! ### Arithmetic -/

/-- The product of a number and a proper double is a number. -/
theorem isNaN_mul {x y : Float} (hx : x.isNaN = false) (hy : isProper y = true) :
    (x * y).isNaN = false := by
  obtain ⟨s, m, e, hm, hy⟩ := isProper_iff.1 hy
  change (Float.Model.pack
    (UnpackedFloat.mul Format.binary64 x.toModel.unpack y.toModel.unpack)).unpack.isNaN = false
  refine isNaN_unpack_pack ?_
  change x.toModel.unpack.isNaN = false at hx
  rw [hy]
  cases hunpack : x.toModel.unpack with
  | notANumber => rw [hunpack] at hx; cases hx
  | infinity | zero => rfl
  | finite => exact isNaN_roundWithAccuracy _ _ _ _

/-- The quotient of a number by a proper double is a number. -/
theorem isNaN_div {x y : Float} (hx : x.isNaN = false) (hy : isProper y = true) :
    (x / y).isNaN = false := by
  obtain ⟨s, m, e, hm, hy⟩ := isProper_iff.1 hy
  change (Float.Model.pack
    (UnpackedFloat.div Format.binary64 x.toModel.unpack y.toModel.unpack)).unpack.isNaN = false
  refine isNaN_unpack_pack ?_
  change x.toModel.unpack.isNaN = false at hx
  rw [hy]
  cases hunpack : x.toModel.unpack with
  | notANumber => rw [hunpack] at hx; cases hx
  | infinity | zero => rfl
  | finite => exact isNaN_roundWithAccuracy _ _ _ _

theorem isNaN_neg {x : Float} (hx : x.isNaN = false) : (-x).isNaN = false := by
  change (Float.Model.pack x.toModel.unpack.neg).unpack.isNaN = false
  refine isNaN_unpack_pack ?_
  change x.toModel.unpack.isNaN = false at hx
  cases hunpack : x.toModel.unpack with
  | notANumber => rw [hunpack] at hx; cases hx
  | infinity | zero | finite => rfl

theorem isNaN_toFloat (n : UInt64) : n.toFloat.isNaN = false := by
  change (Float.Model.pack
    (UnpackedFloat.normalize Format.binary64 n.toNat 0 .positive)).unpack.isNaN = false
  refine isNaN_unpack_pack ?_
  unfold UnpackedFloat.normalize
  split
  · exact isNaN_roundWithAccuracy _ _ _ _
  · rfl
  · exact isNaN_roundWithAccuracy _ _ _ _

/-! ### Powers of ten -/

private theorem log2_le_log2 {m n : Nat} (hm : m ≠ 0) (h : m ≤ n) : m.log2 ≤ n.log2 := by
  have hn : n ≠ 0 := fun hzero => hm (Nat.le_zero.1 (hzero ▸ h))
  exact (Nat.le_log2 hn).2 (Nat.le_trans (Nat.log2_self_le hm) h)

/-- Below the greatest power of ten, not even a carry leaves the range. -/
private theorem log2_powerOfTen_le {n : Nat} (h : n ≤ 307) :
    ((1 <<< 53) * 10 ^ n).log2 ≤ 1075 := by
  have hpow : 10 ^ n ≤ 10 ^ 307 := pow_le_pow_right₀ (by decide) h
  calc ((1 <<< 53) * 10 ^ n).log2
      ≤ ((1 <<< 53) * 10 ^ 307).log2 :=
        log2_le_log2 (Nat.ne_of_gt (Nat.mul_pos (by decide) (Nat.pow_pos (by decide))))
          (Nat.mul_le_mul_left _ hpow)
    _ ≤ 1075 := by decide +kernel

/-- Large powers of ten are rounded from their integer. -/
private theorem toModel_powerOfTen {n : Nat} (hlow : 22 < n) (hhigh : n ≤ 308) :
    (Float.ofScientific 1 false n).toModel = Float.Model.pack
      (roundWithAccuracy Format.binary64 .positive ((1 <<< 53) * 10 ^ n) (-53) .exact) := by
  unfold Float.ofScientific
  rw [dif_neg (fun hboth => absurd hboth.2 (Nat.not_le.2 hlow))]
  change Float.Model.pack (UnpackedFloat.ofScientific Format.binary64 1 (Int.ofNat n)) = _
  unfold UnpackedFloat.ofScientific
  rw [dif_neg (by decide), if_neg (by change ¬ ((n : Int) > 2048); omega),
    if_neg (by change ¬ ((n : Int) < -(2048 + 0)); omega),
    if_pos (show 0 ≤ Int.ofNat n from Int.natCast_nonneg n)]
  rfl

/-- The powers of ten in the range of doubles are proper. -/
theorem isProper_powerOfTen {n : Nat} (h : n ≤ 308) :
    isProper (Float.ofScientific 1 false n) = true := by
  -- The small powers are exact and the greatest one leaves no room for a carry, so both
  -- are computed; in between a bound on the binary digits is enough.
  have hsmall : ∀ k ≤ 22, isProper (Float.ofScientific 1 false k) = true := by decide +kernel
  have hgreatest : isProper (Float.ofScientific 1 false 308) = true := by decide +kernel
  rcases Nat.lt_or_ge 22 n with hlow | hlow
  · rcases Nat.eq_or_lt_of_le h with rfl | hhigh
    · exact hgreatest
    · have hlog : 52 ≤ ((1 <<< 53) * 10 ^ n).log2 := by
        refine (Nat.le_log2 (Nat.ne_of_gt (Nat.mul_pos (by decide) (Nat.pow_pos (by decide))))).2 ?_
        calc 2 ^ 52 ≤ (1 <<< 53) * 1 := by decide
          _ ≤ (1 <<< 53) * 10 ^ n := Nat.mul_le_mul_left _ (Nat.pow_pos (by decide))
      obtain ⟨m, e, hm, hround, hm', hle, hge⟩ :=
        roundWithAccuracy_normal .positive hlog (e := -53) (by decide)
      have hupper := log2_powerOfTen_le (Nat.le_of_lt_succ hhigh)
      have hmodel := (toModel_powerOfTen hlow h).trans (congrArg Float.Model.pack hround)
      exact isProper_of_normal hmodel hm' hle (by omega)
  · exact hsmall n hlow

end Stepwise.Double
