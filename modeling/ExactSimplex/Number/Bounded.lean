/-! The best approximation of a rational by one whose denominator stays within a bound.  The
continued fraction of the number is followed while the denominators of its convergents keep within
the bound.  The last convergent within it and the furthest mediant after that are the candidates;
the nearer one is taken, and the convergent when both are equally near. -/

namespace ExactSimplex.Rational

/-- Two neighbouring convergents, the older one first, as numerators and denominators. -/
structure Convergents where
  olderNum : Int
  olderDen : Nat
  newerNum : Int
  newerDen : Nat

/-- The two fractions that stand before every continued fraction, zero and infinity. -/
def Convergents.start : Convergents := ⟨0, 1, 1, 0⟩

/-- One quotient further: the older convergent drops out. -/
def Convergents.next (c : Convergents) (quotient : Int) : Convergents :=
  ⟨c.newerNum, c.newerDen, c.olderNum + quotient * c.newerNum,
    c.olderDen + quotient.toNat * c.newerDen⟩

/-- Follows the continued fraction of `num / den` for as long as the denominators are at most
`bound`; it ends with the fraction itself when `den` reaches zero. -/
def Convergents.follow (bound : Nat) (c : Convergents) (num : Int) (den : Nat) : Convergents :=
  if _ : den = 0 then c
  else
    let quotient := num / (den : Int)
    let next := c.next quotient
    if bound < next.newerDen then c
    else follow bound next den (num % (den : Int)).toNat
termination_by den
decreasing_by
  have hpos : (0 : Int) < den := by omega
  have := Int.emod_lt_of_pos num hpos
  have := Int.emod_nonneg num (Int.ne_of_gt hpos)
  omega

/-- How far two rationals are apart. -/
def distance (a b : Rat) : Rat := if a < b then b - a else a - b

/-- The nearest rational to `q` whose denominator is at most `bound`. -/
def limitDenominator (bound : Nat) (q : Rat) : Rat :=
  if q.den ≤ bound then q
  else
    let c := Convergents.start.follow bound q.num q.den
    let k := (bound - c.olderDen) / c.newerDen
    let mediant := mkRat (c.olderNum + k * c.newerNum) (c.olderDen + k * c.newerDen)
    let convergent := mkRat c.newerNum c.newerDen
    if distance convergent q ≤ distance mediant q then convergent else mediant

end ExactSimplex.Rational
