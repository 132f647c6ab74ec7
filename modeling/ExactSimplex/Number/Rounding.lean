/-! Rounding a quotient of natural numbers, and its size on a logarithmic scale. -/

namespace ExactSimplex

/-- The whole number nearest to `num / den`; halfway between two of them, the even one. -/
def roundHalfEven (num den : Nat) : Nat :=
  let low := num / den
  let twice := 2 * (num % den)
  if twice < den then low else if den < twice then low + 1 else low + low % 2

/-- The quotient `num / den` times `base ^ shift`, again as two natural numbers. -/
def scaleQuotient (base num den : Nat) (shift : Int) : Nat × Nat :=
  (num * Nat.pow base shift.toNat, den * Nat.pow base (-shift).toNat)

/-- The `e` with `base ^ e ≤ num / den < base ^ (e + 1)`, for positive `num` and `den`. -/
def floorLog (base num den : Nat) : Int :=
  let e : Int := (Nat.toDigits base num).length - (Nat.toDigits base den).length
  let (n, d) := scaleQuotient base num den (-e)
  if d ≤ n then e else e - 1

end ExactSimplex
