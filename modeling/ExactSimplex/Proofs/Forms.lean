import ExactSimplex.Proofs.Literal
import ExactSimplex.Value
import Mathlib.Algebra.Order.Field.Rat
import Mathlib.Tactic.NormNum

/-! The forms in which a number is given: a rational, a truth value, a whole number, a ratio from
elsewhere, a decimal or a literal.  Each form denotes one number, which is what it is coerced to,
exactly; so a number is coerced to the same rational in whatever form it is given.  The text in
which a result is shown is coerced to the same number again.  A host that bounds digits refuses the
longer literals, and the longer numbers when they are to be shown. -/

namespace ExactSimplex

/-- The number that a value stands for.  A decimal stands for its coefficient times its power of
ten, a literal for the quotient of its two numbers.  Doubles are approximated, so they are not among
the forms here. -/
inductive Value.Denotes : Value → Rat → Prop
  | rational (q : Rat) : Denotes (.rational q) q
  | truth (b : Bool) : Denotes (.bool b) (if b then 1 else 0)
  | whole (n : Int) : Denotes (.int n) n
  | fraction (q : Rat) : Denotes (.fraction q) q
  | decimal (negative : Bool) (coefficient : Nat) (exponent : Int) :
    Denotes (.decimal (.finite negative coefficient exponent))
      ((if negative then -1 else 1) * coefficient * 10 ^ exponent)
  | literal {t : Text} {a : Text.Written} {b : Option Text.Written} : t.Denotes a b →
    Rational.denominator b ≠ 0 → Denotes (.text t) (a.value / Rational.denominator b)

/-- The numbers of a literal are not longer than the host allows.  Nothing is asked of the other
values. -/
def Value.Legible (digits : DigitLimit) : Value → Prop
  | .text t => ∀ a b, t.Denotes a b → Rational.Readable digits a b
  | _ => True

namespace Decimal

/-- A finite decimal is its coefficient times its power of ten, with its sign. -/
theorem toRat?_finite (negative : Bool) (coefficient : Nat) (exponent : Int) :
    (finite negative coefficient exponent).toRat? =
      some ((if negative then -1 else 1 : Rat) * coefficient * 10 ^ exponent) := by
  have hsize : mkRat (coefficient * Nat.pow 10 exponent.toNat : Nat)
      (Nat.pow 10 (-exponent).toNat) = (coefficient : Rat) * 10 ^ exponent := by
    rw [Rat.mkRat_eq_div, Nat.pow_eq, Nat.pow_eq]
    push_cast
    rcases Int.le_total 0 exponent with hexp | hexp
    · obtain ⟨n, rfl⟩ := Int.eq_ofNat_of_zero_le hexp
      have hnone : (-(n : Int)).toNat = 0 := by omega
      rw [Int.toNat_natCast, hnone, pow_zero, div_one, zpow_natCast]
    · obtain ⟨n, hn⟩ := Int.eq_ofNat_of_zero_le (Int.neg_nonneg.mpr hexp)
      have hneg : exponent = -(n : Int) := by omega
      have hnone : (-(n : Int)).toNat = 0 := by omega
      rw [hneg, neg_neg, Int.toNat_natCast, hnone, pow_zero, mul_one, zpow_neg, zpow_natCast,
        div_eq_mul_inv]
  rw [toRat?]
  simp only [hsize]
  cases negative with
  | false => simp
  | true => simp

end Decimal

namespace Value

variable {digits : DigitLimit} {v w : Value} {q : Rat}

theorem legible_off (v : Value) : v.Legible .off := by
  cases v with
  | text t => exact fun a b _ => Rational.readable_off a b
  | _ => trivial

/-- A double is coerced when it is finite. -/
theorem exists_toRational_double {x : Float} :
    (∃ q, toRational digits (.double x) = .ok q) ↔ ∃ q, Double.toRat? x = some q := by
  cases h : Double.toRat? x with
  | none => simp [toRational, h]
  | some q => simp [toRational, h]

theorem Denotes.toRational_eq (h : v.Denotes q) (hv : v.Legible digits) :
    v.toRational digits = .ok q := by
  cases h with
  | rational | truth | whole | fraction => rfl
  | decimal negative coefficient exponent =>
    rw [toRational]
    simp only [Decimal.toRat?_finite]
  | literal ht hb => exact Rational.parse_eq_ok_iff.mpr ⟨_, _, ht, hv _ _ ht, hb, rfl⟩

theorem denotes_of_toRational (h : v.toRational digits = .ok q) (hv : ∀ x, v ≠ .double x) :
    v.Denotes q ∧ v.Legible digits := by
  cases v with
  | null | list | record | relation | foreign => cases h
  | rational p | fraction p | int n | bool b =>
    cases h
    exact ⟨by constructor, trivial⟩
  | double x => exact absurd rfl (hv x)
  | text t =>
    obtain ⟨a, b, ht, hread, hb, rfl⟩ := Rational.parse_eq_ok_iff.mp h
    refine ⟨.literal ht hb, fun a' b' ht' => ?_⟩
    obtain ⟨rfl, rfl⟩ := Rational.denotes_unique ht ht'
    exact hread
  | decimal d =>
    cases d with
    | finite negative coefficient exponent =>
      rw [toRational] at h
      simp only [Decimal.toRat?_finite] at h
      cases h
      exact ⟨.decimal negative coefficient exponent, trivial⟩
    | infinite | notANumber => cases h

theorem formatted_of_toRational (h : v.toRational digits = .ok q) :
    v.formatted digits = Rational.write digits q := by
  rw [formatted, h]
  rfl

/-- What is said of coercion and of the texts of results. -/
structure RoundTrips (digits : DigitLimit) : Prop where
  /-- Without a bound every literal can be read and every number can be shown. -/
  unbounded : (∀ v : Value, v.Legible .off) ∧ ∀ q, Rational.Fits .off q
  write_eq : ∀ q : Rat, Rational.write digits q =
    if Rational.Fits digits q then .ok (Rational.text q) else .error .tooManyDigits
  parse_text : ∀ q : Rat, Rational.Fits digits q →
    Rational.parse digits (Rational.text q) = .ok q
  /-- A literal that is read stands for the quotient of its numbers, and is written as this number,
  in the one way in which numbers are written. -/
  canonical : ∀ (t : Text) (q : Rat), Rational.parse digits t = .ok q →
    (∃ a b, t.Denotes a b ∧ Rational.denominator b ≠ 0 ∧
      q = (a.value : Rat) / Rational.denominator b) ∧
    Rational.write digits q = .ok (Rational.text q) ∧
    ∀ cs, Text.Plain cs q ↔ cs = (Rational.text q).toList
  alike_iff : ∀ (t u : Text) (p q : Rat), Rational.parse digits t = .ok p →
    Rational.parse digits u = .ok q → (Rational.write digits p = Rational.write digits q ↔ p = q)
  /-- What is coerced: the numbers in one of the forms, and the finite doubles. -/
  accepted : ∀ v : Value, (∃ q, v.toRational digits = .ok q) ↔
    (∃ q, v.Denotes q) ∧ v.Legible digits ∨ ∃ x q, v = .double x ∧ Double.toRat? x = some q
  formatted_back : ∀ (v : Value) (q : Rat), v.toRational digits = .ok q →
    (Rational.Fits digits q → ∃ s, v.formatted digits = .ok s ∧
      toRational digits (.text s) = .ok q) ∧
    (¬Rational.Fits digits q → v.formatted digits = .error .tooManyDigits)
  exact_iff : ∀ v : Value, (∀ x, v ≠ .double x) →
    ∀ q, v.toRational digits = .ok q ↔ v.Denotes q ∧ v.Legible digits
  same : ∀ (v w : Value) (q : Rat), v.Denotes q → w.Denotes q → v.Legible digits →
    w.Legible digits → v.toRational digits = w.toRational digits

end Value

end ExactSimplex
