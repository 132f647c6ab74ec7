import ExactSimplex.Proofs.Approximation
import ExactSimplex.Value
import Mathlib

/-! Doubles as rationals.  A finite double stands for its significand times a power of two, and
doubles are in the order of the rationals that they stand for.  A finite double is coerced to the
best approximation of its rational, so coercion keeps the order; all other doubles are refused. -/

namespace ExactSimplex

namespace Double

open Float.Model Float.Model.UnpackedFloat

/-- The rational that an unpacked double stands for, if it is finite. -/
def value? : UnpackedFloat → Option Rat
  | .finite sign significand exponent _ => some (sign.apply significand * 2 ^ exponent)
  | .zero _ => some 0
  | .infinity _ | .notANumber => none

variable {x y : Float} {p q : Rat}

/-! ### The fields of a double -/

section Fields

variable (x : Float)

theorem exponentField_eq : exponentField x =
    (@unpackExponent Format.binary64 x.toBits.toBitVec).toNat := by
  simp only [unpackExponent, BitVec.toNat_cast, BitVec.extractLsb_toNat, Nat.shiftRight_eq_div_pow]
  rfl

theorem fractionField_eq : fractionField x =
    (@unpackMantissa Format.binary64 x.toBits.toBitVec).toNat := by
  simp only [unpackMantissa, BitVec.toNat_cast, BitVec.extractLsb_toNat,
    Nat.shiftRight_eq_div_pow, pow_zero, Nat.div_one]
  rfl

theorem unpackSign_toNat : (@unpackSign Format.binary64 x.toBits.toBitVec).toNat =
    x.toBits.toNat / 2 ^ 63 % 2 := by
  simp only [unpackSign, BitVec.toNat_cast, BitVec.extractLsb_toNat, Nat.shiftRight_eq_div_pow]
  rfl

theorem fractionField_lt : fractionField x < exponentUnit := Nat.mod_lt _ (by decide)

/-- The sign by the highest bit. -/
def sign : Sign := if isNegative x then .negative else .positive

theorem ofBitVec_unpackSign :
    Sign.ofBitVec (@unpackSign Format.binary64 x.toBits.toBitVec) = sign x := by
  have hlt := x.toBits.toNat_lt
  have hbit := unpackSign_toNat x
  rw [Sign.ofBitVec, sign, isNegative, signUnit]
  by_cases hneg : 0x8000000000000000 ≤ x.toBits.toNat
  · have hne : @unpackSign Format.binary64 x.toBits.toBitVec ≠ 0#1 := by
      intro h
      rw [h] at hbit
      simp at hbit
      omega
    rw [if_neg hne, decide_eq_true hneg, if_pos rfl]
  · have heq : @unpackSign Format.binary64 x.toBits.toBitVec = 0#1 := by
      apply BitVec.toNat_inj.mp
      rw [hbit]
      show _ = 0
      omega
    rw [if_pos heq, decide_eq_false hneg]
    rfl

theorem unpack_eq : x.toModel.unpack = UnpackedFloat.unpack Format.binary64 x.toBits.toBitVec := rfl

end Fields

theorem toNat_append_one (f : BitVec 52) : (1#1 ++ f).toNat = f.toNat + exponentUnit := by
  rw [BitVec.toNat_append, ← Nat.shiftLeft_add_eq_or_of_lt f.isLt, Nat.add_comm]
  rfl

theorem finite_congr {s s' : Sign} {m m' : Nat} {e e' : Int} {hm : 0 < m} {hm' : 0 < m'}
    (hs : s = s') (hmm : m = m') (he : e = e') :
    UnpackedFloat.finite s m e hm = .finite s' m' e' hm' := by
  subst hs hmm he
  rfl

/-! ### The four kinds of doubles -/

theorem exponent_eq_max_iff :
    @unpackExponent Format.binary64 x.toBits.toBitVec = -1#11 ↔
      exponentField x = 2047 := by
  rw [exponentField_eq, ← BitVec.toNat_inj]
  rfl

theorem exponent_eq_zero_iff :
    @unpackExponent Format.binary64 x.toBits.toBitVec = 0#11 ↔ exponentField x = 0 := by
  rw [exponentField_eq, ← BitVec.toNat_inj]
  rfl

theorem mantissa_eq_zero_iff :
    @unpackMantissa Format.binary64 x.toBits.toBitVec = 0#52 ↔ fractionField x = 0 := by
  rw [fractionField_eq, ← BitVec.toNat_inj]
  rfl

theorem unpack_special (h : exponentField x = 2047) : x.toModel.unpack =
    if fractionField x = 0 then .infinity (sign x) else .notANumber := by
  rw [unpack_eq, UnpackedFloat.unpack, if_pos (exponent_eq_max_iff.mpr h), ofBitVec_unpackSign]
  by_cases hf : fractionField x = 0
  · rw [if_pos (mantissa_eq_zero_iff.mpr hf), if_pos hf]
  · rw [if_neg (mantissa_eq_zero_iff.not.mpr hf), if_neg hf]

theorem unpack_zero (h : exponentField x = 0) (hf : fractionField x = 0) :
    x.toModel.unpack = .zero (sign x) := by
  rw [unpack_eq, UnpackedFloat.unpack, if_neg (exponent_eq_max_iff.not.mpr (by omega)),
    if_pos (exponent_eq_zero_iff.mpr h), dif_pos (mantissa_eq_zero_iff.mpr hf),
    ofBitVec_unpackSign]

theorem unpack_subnormal (h : exponentField x = 0) (hf : fractionField x ≠ 0) :
    x.toModel.unpack = .finite (sign x) (fractionField x) (-1074) (Nat.pos_of_ne_zero hf) := by
  rw [unpack_eq, UnpackedFloat.unpack, if_neg (exponent_eq_max_iff.not.mpr (by omega)),
    if_pos (exponent_eq_zero_iff.mpr h), dif_neg (mantissa_eq_zero_iff.not.mpr hf)]
  refine finite_congr (ofBitVec_unpackSign x) (fractionField_eq x).symm ?_
  rw [← exponentField_eq, h]
  rfl

theorem unpack_normal (h : exponentField x ≠ 2047) (hzero : exponentField x ≠ 0) :
    x.toModel.unpack = .finite (sign x) (fractionField x + exponentUnit) (exponentField x - 1075)
      (Nat.lt_of_lt_of_le (by decide) (Nat.le_add_left _ _)) := by
  rw [unpack_eq, UnpackedFloat.unpack, if_neg (exponent_eq_max_iff.not.mpr h),
    if_neg (exponent_eq_zero_iff.not.mpr hzero)]
  refine finite_congr (ofBitVec_unpackSign x) ?_ ?_
  · rw [fractionField_eq]
    exact toNat_append_one _
  · rw [exponentField_eq]
    rfl

/-! ### The rational of a double -/

/-- A significand and an exponent field as a rational. -/
theorem mkRat_eq (significand e : Nat) :
    mkRat (significand * Nat.pow 2 (e - 1075) : Nat) (Nat.pow 2 (1075 - max e 1)) =
      significand * (2 : Rat) ^ (max (e : Int) 1 - 1075) := by
  rw [Rat.mkRat_eq_div, Nat.pow_eq, Nat.pow_eq]
  push_cast
  rcases Nat.le_total 1075 e with hle | hle
  · have hexponent : max (e : Int) 1 - 1075 = (e - 1075 : Nat) := by omega
    have hnone : 1075 - max e 1 = 0 := by omega
    rw [hexponent, hnone, pow_zero, div_one, zpow_natCast]
  · have hexponent : max (e : Int) 1 - 1075 = -((1075 - max e 1 : Nat) : Int) := by omega
    have hnone : e - 1075 = 0 := by omega
    rw [hexponent, hnone, pow_zero, mul_one, zpow_neg, zpow_natCast, div_eq_mul_inv]

theorem neg_eq_apply (x : Float) (m : Nat) (v : Rat) :
    (if isNegative x = true then -(m * v) else m * v) = ((sign x).apply m : Int) * v := by
  rw [sign]
  split
  · simp [Sign.apply]
  · simp [Sign.apply]

/-- The fields of a double give the rational that it stands for. -/
theorem toRat?_eq (x : Float) : toRat? x = value? x.toModel.unpack := by
  rw [toRat?]
  simp only [mkRat_eq, neg_eq_apply]
  by_cases hspecial : exponentField x = 2047
  · rw [if_pos hspecial, unpack_special hspecial]
    split
    · rfl
    · rfl
  · rw [if_neg hspecial, significand]
    by_cases hzero : exponentField x = 0
    · rw [if_pos hzero, hzero]
      by_cases hf : fractionField x = 0
      · rw [unpack_zero hzero hf, hf]
        cases sign x <;> simp [value?, Sign.apply]
      · rw [unpack_subnormal hzero hf]
        rfl
    · have hmax : max (exponentField x : Int) 1 = exponentField x := by omega
      rw [if_neg hzero, unpack_normal hspecial hzero, hmax]
      rfl

/-! ### The order of doubles -/

theorem lt_iff : x < y ↔ x.toModel.unpack.compare y.toModel.unpack = some .lt := by
  rw [show x < y ↔ Float.lt x y = true from Iff.rfl, Float.lt, decide_eq_true_iff,
    show x.toModel < y.toModel ↔ (x.toModel.unpack.compare y.toModel.unpack == some .lt) = true
      from Iff.rfl, beq_iff_eq]

/-- A significand and an exponent of a double: there is a leading one, unless the exponent is the
least. -/
structure Fits (m : Nat) (e : Int) : Prop where
  lt : m < 2 ^ 53
  least : -1074 ≤ e
  leading : e ≠ -1074 → 2 ^ 52 ≤ m

theorem fits_of_unpack_eq {s : Sign} {m : Nat} {e : Int} {hm : 0 < m}
    (h : x.toModel.unpack = .finite s m e hm) : Fits m e := by
  have hfraction := fractionField_lt x
  have hunit : exponentUnit = 2 ^ 52 := rfl
  by_cases hspecial : exponentField x = 2047
  · rw [unpack_special hspecial] at h
    split at h <;> cases h
  by_cases hzero : exponentField x = 0
  · by_cases hf : fractionField x = 0
    · rw [unpack_zero hzero hf] at h
      cases h
    · rw [unpack_subnormal hzero hf] at h
      cases h
      constructor <;> omega
  · rw [unpack_normal hspecial hzero] at h
    cases h
    constructor <;> omega

/-- A larger exponent outweighs the significands. -/
theorem Fits.scaled_lt {m₁ m₂ : Nat} {e₁ e₂ : Int} (h₁ : Fits m₁ e₁) (h₂ : Fits m₂ e₂)
    (h : e₁ < e₂ ∨ e₁ = e₂ ∧ m₁ < m₂) : (m₁ : Rat) * 2 ^ e₁ < m₂ * 2 ^ e₂ := by
  have hpos₁ : (0 : Rat) < 2 ^ e₁ := zpow_pos two_pos _
  obtain he | ⟨rfl, hm⟩ := h
  · have hpos₂ : (0 : Rat) < 2 ^ e₂ := zpow_pos two_pos _
    have hm₁ : (m₁ : Rat) < 2 ^ 53 := by exact_mod_cast h₁.lt
    have hm₂ : (2 : Rat) ^ 52 ≤ m₂ := by
      exact_mod_cast h₂.leading (Int.ne_of_gt (Int.lt_of_le_of_lt h₁.least he))
    calc (m₁ : Rat) * 2 ^ e₁ < 2 ^ 53 * 2 ^ e₁ := by gcongr
      _ = 2 ^ 52 * 2 ^ (e₁ + 1) := by rw [zpow_add_one₀ two_ne_zero]; ring
      _ ≤ 2 ^ 52 * 2 ^ e₂ := by
        gcongr
        · norm_num
        · exact he
      _ ≤ m₂ * 2 ^ e₂ := by gcongr
  · gcongr

theorem value?_positive (m : Nat) (e : Int) (hm : 0 < m) :
    value? (.finite .positive m e hm) = some ((m : Rat) * 2 ^ e) := by
  simp [value?, Sign.apply]

theorem value?_negative (m : Nat) (e : Int) (hm : 0 < m) :
    value? (.finite .negative m e hm) = some (-((m : Rat) * 2 ^ e)) := by
  simp [value?, Sign.apply]

theorem finite_pos {m : Nat} (hm : 0 < m) (e : Int) : (0 : Rat) < m * 2 ^ e :=
  mul_pos (Nat.cast_pos.mpr hm) (zpow_pos two_pos _)

theorem compare_then_eq_lt {m₁ m₂ : Nat} {e₁ e₂ : Int} :
    (compare e₁ e₂).then (compare m₁ m₂) = .lt ↔ e₁ < e₂ ∨ e₁ = e₂ ∧ m₁ < m₂ := by
  rw [Ordering.then_eq_lt, compare_lt_iff_lt, compare_eq_iff_eq, compare_lt_iff_lt]

theorem compare_then_eq_gt {m₁ m₂ : Nat} {e₁ e₂ : Int} :
    (compare e₁ e₂).then (compare m₁ m₂) = .gt ↔ e₂ < e₁ ∨ e₂ = e₁ ∧ m₂ < m₁ := by
  rw [Ordering.then_eq_gt, compare_gt_iff_gt, compare_eq_iff_eq, compare_gt_iff_gt, eq_comm]

/-- Doubles are in the order of the rationals that they stand for. -/
theorem toRat?_lt_of_lt (hx : toRat? x = some p) (hy : toRat? y = some q) (h : x < y) : p < q := by
  rw [toRat?_eq] at hx hy
  rw [lt_iff] at h
  -- the order goes by sign, then by exponent, then by significand, and so do the cases
  have fitsX := @fits_of_unpack_eq x
  have fitsY := @fits_of_unpack_eq y
  generalize x.toModel.unpack = a at hx h fitsX
  generalize y.toModel.unpack = b at hy h fitsY
  cases a with
  | notANumber | infinity => cases hx
  | zero =>
    cases hx
    cases b with
    | notANumber | infinity => cases hy
    | zero => cases h
    | finite t n f hn =>
      cases t with
      | negative => cases h
      | positive =>
        cases (value?_positive n f hn).symm.trans hy
        exact finite_pos hn f
  | finite s m e hm =>
    cases b with
    | notANumber | infinity => cases hy
    | zero =>
      cases hy
      cases s with
      | negative =>
        cases (value?_negative m e hm).symm.trans hx
        exact neg_neg_of_pos (finite_pos hm e)
      | positive => cases h
    | finite t n f hn =>
      have hfitsX := fitsX rfl
      have hfitsY := fitsY rfl
      cases s with
      | negative =>
        cases (value?_negative m e hm).symm.trans hx
        cases t with
        | negative =>
          cases (value?_negative n f hn).symm.trans hy
          have horder := compare_then_eq_gt.mp (Ordering.swap_eq_lt.mp (Option.some.inj h))
          exact neg_lt_neg (hfitsY.scaled_lt hfitsX horder)
        | positive =>
          cases (value?_positive n f hn).symm.trans hy
          exact (neg_neg_of_pos (finite_pos hm e)).trans (finite_pos hn f)
      | positive =>
        cases (value?_positive m e hm).symm.trans hx
        cases t with
        | negative => cases h
        | positive =>
          cases (value?_positive n f hn).symm.trans hy
          exact hfitsX.scaled_lt hfitsY (compare_then_eq_lt.mp (Option.some.inj h))

/-! ### What is refused -/

theorem exponentField_of_toRat?_eq_none (h : toRat? x = none) : exponentField x = 2047 := by
  by_contra hspecial
  rw [toRat?] at h
  simp only [if_neg hspecial] at h
  cases h

theorem toRat?_eq_none_iff : toRat? x = none ↔ x.isFinite = false := by
  rw [toRat?_eq, show x.isFinite = x.toModel.unpack.isFinite from rfl]
  cases x.toModel.unpack <;> simp [value?, UnpackedFloat.isFinite]

theorem refused_of_isNaN (h : x.isNaN = true) : toRat? x = none ∧ specialText x = "nan" := by
  have hunpack : x.toModel.unpack.isNaN = true := h
  have hnone : toRat? x = none := by
    rw [toRat?_eq]
    cases hx : x.toModel.unpack <;> simp_all [value?, UnpackedFloat.isNaN]
  refine ⟨hnone, ?_⟩
  rw [unpack_special (exponentField_of_toRat?_eq_none hnone)] at hunpack
  by_cases hf : fractionField x = 0
  · rw [if_pos hf] at hunpack
    cases hunpack
  · rw [specialText, if_pos hf]

theorem refused_of_isInf (h : x.isInf = true) :
    toRat? x = none ∧ specialText x = if isNegative x then "-inf" else "inf" := by
  have hunpack : x.toModel.unpack.isInf = true := h
  have hnone : toRat? x = none := by
    rw [toRat?_eq]
    cases hx : x.toModel.unpack <;> simp_all [value?, UnpackedFloat.isInf]
  refine ⟨hnone, ?_⟩
  rw [unpack_special (exponentField_of_toRat?_eq_none hnone)] at hunpack
  by_cases hf : fractionField x = 0
  · rw [specialText, if_neg (not_not.mpr hf)]
  · rw [if_neg hf] at hunpack
    cases hunpack

end Double

namespace Value

open Double

variable {x y : Float} {digits : DigitLimit}

theorem toRational_double {q : Rat} (h : toRat? x = some q) :
    toRational digits (.double x) = .ok (Rational.limitDenominator denominatorBound q) := by
  rw [toRational, h]

theorem toRational_double_none (h : toRat? x = none) :
    toRational digits (.double x) = .error (.notFinite (specialText x)) := by
  rw [toRational, h]

theorem exists_toRat?_of_isFinite (h : x.isFinite = true) : ∃ q, toRat? x = some q :=
  Option.ne_none_iff_exists'.mp fun hnone => by
    rw [toRat?_eq_none_iff, h] at hnone
    cases hnone

/-- What a double is coerced to.  A finite double, standing for the rational `q`, gives a rational
within the bound on denominators such that nothing else within the bound is nearer to `q`, and `q`
itself if it is within the bound; greater doubles do not give less.  All other doubles are
refused. -/
theorem double_best_approximation (digits : DigitLimit) :
    (∀ x : Float, x.isFinite = true → ∃ q r, Double.value? x.toModel.unpack = some q ∧
      toRational digits (.double x) = .ok r ∧ r.den ≤ 10 ^ 12 ∧
      (∀ p : Rat, p.den ≤ 10 ^ 12 → |q - r| ≤ |q - p|) ∧ (q.den ≤ 10 ^ 12 → r = q)) ∧
    (∀ x y : Float, x.isFinite = true → y.isFinite = true → x < y →
      ∃ r s, toRational digits (.double x) = .ok r ∧ toRational digits (.double y) = .ok s ∧
        r ≤ s) ∧
    (∀ x : Float, x.isNaN = true → toRational digits (.double x) = .error (.notFinite "nan")) ∧
    ∀ x : Float, x.isInf = true → toRational digits (.double x) =
      .error (.notFinite (if isNegative x then "-inf" else "inf")) := by
  have hbound : 0 < denominatorBound := by decide
  refine ⟨fun x hx => ?_, fun x y hx hy hlt => ?_, fun x hx => ?_, fun x hx => ?_⟩
  · obtain ⟨q, hq⟩ := exists_toRat?_of_isFinite hx
    obtain ⟨hden, hbest⟩ := Rational.limitDenominator_spec hbound q
    exact ⟨q, _, toRat?_eq x ▸ hq, toRational_double hq, hden, hbest,
      Rational.limitDenominator_of_den_le⟩
  · obtain ⟨p, hp⟩ := exists_toRat?_of_isFinite hx
    obtain ⟨q, hq⟩ := exists_toRat?_of_isFinite hy
    exact ⟨_, _, toRational_double hp, toRational_double hq,
      Rational.limitDenominator_mono hbound (toRat?_lt_of_lt hp hq hlt)⟩
  · obtain ⟨hnone, htext⟩ := refused_of_isNaN hx
    rw [toRational_double_none hnone, htext]
  · obtain ⟨hnone, htext⟩ := refused_of_isInf hx
    rw [toRational_double_none hnone, htext]

/-- The double nearest to a third is coerced to a third: nothing with a denominator up to `10^12` is
nearer to that double.  One, a greater double, is coerced to no less; what is not a number and the
negative infinity are refused. -/
theorem double_best_approximation_third :
    (toRational .off (.double (Float.ofBits 0x3FD5555555555555)) = .ok (1 / 3) ∧
      ∀ p : Rat, p.den ≤ 10 ^ 12 →
        |6004799503160661 / 18014398509481984 - 1 / 3| ≤
          |6004799503160661 / 18014398509481984 - p|) ∧
    (∃ r, toRational .off (.double (Float.ofBits 0x3FF0000000000000)) = .ok r ∧ 1 / 3 ≤ r) ∧
    toRational .off (.double (Float.ofBits 0x7FF8000000000000)) = .error (.notFinite "nan") ∧
    toRational .off (.double (Float.ofBits 0xFFF0000000000000)) = .error (.notFinite "-inf") := by
  have hvalue : toRat? (Float.ofBits 0x3FD5555555555555) =
      some (6004799503160661 / 18014398509481984) := by decide +kernel
  have hresult : toRational .off (.double (Float.ofBits 0x3FD5555555555555)) = .ok (1 / 3) := by
    decide +kernel
  obtain ⟨hfinite, hordered, hnan, hinf⟩ := double_best_approximation .off
  refine ⟨?_, ?_, hnan _ (by decide +kernel), ?_⟩
  · obtain ⟨q, r, hq, hr, -, hbest, -⟩ :=
      hfinite (Float.ofBits 0x3FD5555555555555) (by decide +kernel)
    rw [← toRat?_eq, hvalue] at hq
    rw [hresult] at hr
    cases hq
    cases hr
    exact ⟨hresult, hbest⟩
  · obtain ⟨r, s, hr, hs, hle⟩ := hordered (Float.ofBits 0x3FD5555555555555)
      (Float.ofBits 0x3FF0000000000000) (by decide +kernel) (by decide +kernel) (by decide +kernel)
    rw [hresult] at hr
    cases hr
    exact ⟨s, hs, hle⟩
  · rw [hinf _ (by decide +kernel)]
    decide +kernel

end Value

end ExactSimplex
