/-! A hash of rationals that agrees with equality and gives a whole number the hash that it has as
an integer.  Integers are hashed by their residue modulo the prime `2^61 - 1`, with the sign kept;
minus one is set aside and hashes like minus two.  A rational that is not whole mixes the hashes of
its two parts.  Numbers of the other kinds are hashed by their value alone, in the field of the
residues. -/

namespace ExactSimplex.Rational

/-- The modulus of the hash of an integer, `2^61 - 1`. -/
def hashModulus : Nat := 0x1FFFFFFFFFFFFFFF

/-- The hash of an integer: its residue with its sign, where minus one is set aside. -/
def hashInt (n : Int) : Int :=
  let residue := n.sign * (n.natAbs % hashModulus : Nat)
  if residue = -1 then -2 else residue

/-- Takes one more part into the hash of a tuple. -/
def mixHash (acc : UInt64) (part : Int) : UInt64 :=
  let acc := acc + (Int64.ofInt part).toUInt64 * 14029467366897019727
  (acc <<< 31 ||| acc >>> 33) * 11400714785074694791

/-- The hash of a pair of integers, mixed one after the other. -/
def hashPair (a b : Int) : Int :=
  let seed : UInt64 := 2870177450012600261
  let mixed := mixHash (mixHash seed a) b + (2 ^^^ (seed ^^^ 3527539))
  if mixed = 0xFFFFFFFFFFFFFFFF then 1546275796 else mixed.toInt64.toInt

/-- The hash of a rational: of its numerator if it is whole, else of its two parts. -/
def hash (q : Rat) : Int :=
  if q.den = 1 then hashInt q.num else hashPair (hashInt q.num) (hashInt q.den)

/-! ### By value -/

/-- `base ^ exponent` modulo `modulus`, by repeated squares. -/
def powMod (base exponent modulus : Nat) : Nat :=
  if exponent = 0 then 1 % modulus
  else
    let root := powMod (base * base % modulus) (exponent / 2) modulus
    if exponent % 2 = 0 then root else base * root % modulus
termination_by exponent

/-- The inverse of a residue, zero if there is none: by Fermat, as the modulus is a prime. -/
def inverseResidue (n : Nat) : Nat := powMod n (hashModulus - 2) hashModulus

/-- What an infinity is hashed to, and a number whose denominator has no inverse. -/
def hashInfinity : Nat := 314159

/-- The hash by value: the numerator times the inverse of the denominator, modulo the prime. -/
def hashValue (q : Rat) : Int :=
  let inverse := inverseResidue q.den
  hashInt (q.num.sign *
    (if inverse = 0 then hashInfinity else q.num.natAbs * inverse % hashModulus : Nat))

/-- The same for a finite decimal, whose power of ten is never written out. -/
def hashDecimal (negative : Bool) (coefficient : Nat) (exponent : Int) : Int :=
  let base := if 0 ≤ exponent then 10 else inverseResidue 10
  let size := coefficient * powMod base exponent.natAbs hashModulus % hashModulus
  hashInt (if negative then -size else size)

end ExactSimplex.Rational
