import ExactSimplex.Number.Hash
import ExactSimplex.Number.Rational
import Mathlib.Algebra.Order.Field.Basic
import Mathlib.Algebra.Order.Field.Rat
import Mathlib.Data.Int.CharZero
import Mathlib.Data.Rat.Lemmas
import Mathlib.Tactic.FieldSimp

/-! Fractions as pairs of whole numbers.  The operations here know whole numbers only: they multiply
crosswise, and `make` puts the sign into the numerator and takes the common divisor out.  So the
result of each is in lowest terms and stands for the exact result, whatever the signs; and since
a number has only one fraction in lowest terms, equality and hash may go by the two parts. -/

namespace ExactSimplex

/-- A numerator and a denominator, of which nothing is assumed. -/
@[ext]
structure Fraction where
  num : Int
  den : Int
deriving DecidableEq, Repr

namespace Fraction

/-- Both numbers divided by their greatest common divisor. -/
def reduce (num den : Int) : Fraction := ⟨num / Int.gcd num den, den / Int.gcd num den⟩

/-- The fraction of two numbers, with a positive denominator and without a common divisor. -/
def make (num den : Int) : Except Error Fraction :=
  if den = 0 then .error .zeroDenominator
  else if den < 0 then .ok (reduce (-num) (-den))
  else .ok (reduce num den)

def add (a b : Fraction) : Except Error Fraction :=
  make (a.num * b.den + b.num * a.den) (a.den * b.den)

def subtract (a b : Fraction) : Except Error Fraction :=
  make (a.num * b.den - b.num * a.den) (a.den * b.den)

def multiply (a b : Fraction) : Except Error Fraction := make (a.num * b.num) (a.den * b.den)

def divide (a b : Fraction) : Except Error Fraction :=
  if b.num = 0 then .error .divisionByZero else make (a.num * b.den) (a.den * b.num)

def negate (a : Fraction) : Except Error Fraction := make (-a.num) a.den

def abs (a : Fraction) : Except Error Fraction := if 0 ≤ a.num then .ok a else a.negate

/-- Minus one, zero or one, by the products across. -/
def compare (a b : Fraction) : Int :=
  if a.num * b.den < b.num * a.den then -1 else if b.num * a.den < a.num * b.den then 1 else 0

/-- The hash of the numerator for a whole number, otherwise one that mixes both parts. -/
def hash (a : Fraction) : Int :=
  if a.den = 1 then Rational.hashInt a.num
  else Rational.hashPair (Rational.hashInt a.num) (Rational.hashInt a.den)

/-- The number that a fraction stands for. -/
def value (a : Fraction) : Rat := a.num / a.den

/-- A fraction as it is kept: a positive denominator and no common factor. -/
structure Lowest (a : Fraction) : Prop where
  den_pos : 0 < a.den
  coprime : Int.gcd a.num a.den = 1

/-- The fraction of a number in lowest terms. -/
def ofRat (q : Rat) : Fraction := ⟨q.num, q.den⟩

variable {a b : Fraction} {num den : Int}

@[simp] theorem value_ofRat (q : Rat) : (ofRat q).value = q := q.num_div_den

theorem lowest_ofRat (q : Rat) : (ofRat q).Lowest := ⟨Int.natCast_pos.mpr q.pos, q.reduced⟩

namespace Lowest

theorem den_ne_zero (h : a.Lowest) : (a.den : Rat) ≠ 0 := Int.cast_ne_zero.mpr h.den_pos.ne'

theorem num_eq_zero_iff (h : a.Lowest) : a.num = 0 ↔ a.value = 0 := by
  rw [value, div_eq_zero_iff, or_iff_left h.den_ne_zero, Int.cast_eq_zero]

/-- Zero is the fraction with denominator one. -/
theorem den_eq_one (h : a.Lowest) (hzero : a.num = 0) : a.den = 1 := by
  have hgcd := h.coprime
  rw [hzero, Int.gcd_zero_left] at hgcd
  have := h.den_pos
  omega

/-- A number has only one fraction in lowest terms. -/
theorem eq_ofRat (h : a.Lowest) : a = ofRat a.value := by
  have hnum := Rat.num_div_eq_of_coprime h.den_pos h.coprime
  have hden := Rat.den_div_eq_of_coprime h.den_pos h.coprime
  rw [← value] at hnum hden
  rw [ofRat, hnum, hden]

theorem eq_iff (ha : a.Lowest) (hb : b.Lowest) : a = b ↔ a.value = b.value := by
  refine ⟨fun h => h ▸ rfl, fun h => ?_⟩
  rw [ha.eq_ofRat, hb.eq_ofRat, h]

end Lowest

/-! ### Making fractions -/

theorem lowest_reduce (h : 0 < den) : (reduce num den).Lowest := by
  refine ⟨?_, Int.gcd_div_gcd_div_gcd (Int.gcd_pos_of_ne_zero_right num h.ne')⟩
  exact Int.ediv_pos_of_pos_of_dvd h (Int.natCast_nonneg _) (Int.gcd_dvd_right num den)

theorem value_reduce (h : 0 < den) : (reduce num den).value = num / den := by
  have hgcd : ((Int.gcd num den : Int) : Rat) ≠ 0 := by
    exact_mod_cast (Int.gcd_pos_of_ne_zero_right num h.ne').ne'
  rw [value, reduce, Rat.intCast_div _ _ (Int.gcd_dvd_left num den),
    Rat.intCast_div _ _ (Int.gcd_dvd_right num den), div_div_div_cancel_right₀ hgcd]

theorem reduce_eq (h : 0 < den) : reduce num den = ofRat (num / den) := by
  rw [(lowest_reduce h).eq_ofRat, value_reduce h]

/-- A fraction can be made with every denominator but zero. -/
theorem make_eq (h : den ≠ 0) : make num den = .ok (ofRat (num / den)) := by
  rw [make, if_neg h]
  by_cases hneg : den < 0
  · rw [if_pos hneg, reduce_eq (Int.neg_pos.mpr hneg), Int.cast_neg, Int.cast_neg, neg_div_neg_eq]
  · rw [if_neg hneg, reduce_eq (by omega)]

theorem make_one (n : Int) : make n 1 = .ok (ofRat n) := by
  rw [make_eq one_ne_zero, Int.cast_one, div_one]

/-! ### The operations -/

section Operations

variable (ha : a.Lowest) (hb : b.Lowest)
include ha hb

theorem add_eq : a.add b = .ok (ofRat (a.value + b.value)) := by
  have hda := ha.den_ne_zero
  have hdb := hb.den_ne_zero
  rw [add, make_eq (mul_ne_zero ha.den_pos.ne' hb.den_pos.ne'), value, value]
  push_cast
  congr 2
  field_simp

theorem subtract_eq : a.subtract b = .ok (ofRat (a.value - b.value)) := by
  have hda := ha.den_ne_zero
  have hdb := hb.den_ne_zero
  rw [subtract, make_eq (mul_ne_zero ha.den_pos.ne' hb.den_pos.ne'), value, value]
  push_cast
  congr 2
  field_simp

theorem multiply_eq : a.multiply b = .ok (ofRat (a.value * b.value)) := by
  rw [multiply, make_eq (mul_ne_zero ha.den_pos.ne' hb.den_pos.ne'), value, value,
    div_mul_div_comm, Int.cast_mul, Int.cast_mul]

/-- The denominator that is made here has the sign of the divisor. -/
theorem divide_eq : a.divide b =
    if b.value = 0 then .error .divisionByZero else .ok (ofRat (a.value / b.value)) := by
  rw [divide]
  by_cases h : b.num = 0
  · rw [if_pos h, if_pos (hb.num_eq_zero_iff.mp h)]
  · rw [if_neg h, if_neg (mt hb.num_eq_zero_iff.mpr h), make_eq (mul_ne_zero ha.den_pos.ne' h),
      value, value, div_div_div_eq, Int.cast_mul, Int.cast_mul]

theorem lt_iff : a.num * b.den < b.num * a.den ↔ a.value < b.value := by
  have hda : (0 : Rat) < a.den := Int.cast_pos.mpr ha.den_pos
  have hdb : (0 : Rat) < b.den := Int.cast_pos.mpr hb.den_pos
  rw [value, value, div_lt_div_iff₀ hda hdb]
  exact_mod_cast Iff.rfl

theorem compare_eq :
    a.compare b = if a.value < b.value then -1 else if b.value < a.value then 1 else 0 := by
  rw [compare]
  simp only [lt_iff ha hb, lt_iff hb ha]

end Operations

theorem negate_eq (ha : a.Lowest) : a.negate = .ok (ofRat (-a.value)) := by
  rw [negate, make_eq ha.den_pos.ne', value, Int.cast_neg, neg_div]

theorem abs_eq (ha : a.Lowest) : a.abs = .ok (ofRat |a.value|) := by
  have hden : (0 : Rat) < a.den := Int.cast_pos.mpr ha.den_pos
  rw [abs]
  by_cases h : 0 ≤ a.num
  · have hvalue : 0 ≤ a.value := div_nonneg (Int.cast_nonneg h) hden.le
    rw [if_pos h, abs_of_nonneg hvalue, ← ha.eq_ofRat]
  · have hvalue : a.value < 0 := div_neg_of_neg_of_pos (Int.cast_lt_zero.mpr (by omega)) hden
    rw [if_neg h, negate_eq ha, abs_of_neg hvalue]

/-- A whole number hashes like the integer. -/
theorem hash_eq_hashInt {n : Int} (ha : a.Lowest) (h : a.value = n) :
    a.hash = Rational.hashInt n := by
  rw [ha.eq_ofRat, h, hash, ofRat, Rat.den_intCast, Rat.num_intCast]
  exact if_pos rfl

end Fraction

end ExactSimplex
