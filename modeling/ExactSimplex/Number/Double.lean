import ExactSimplex.Number.Rounding

/-! Doubles and rationals.  A finite double denotes its significand times a power of two.  The
other way, a rational is rounded to the nearest double, to the even significand when two are
equally near, and one that rounds beyond the largest double has none. -/

namespace ExactSimplex.Double

/-- The place value of the sign bit, `2^63`. -/
def signUnit : Nat := 0x8000000000000000

/-- The place value of the lowest exponent bit, `2^52`. -/
def exponentUnit : Nat := 0x10000000000000

/-- Whether the sign bit is set, as it is for a negative zero. -/
def isNegative (x : Float) : Bool := signUnit ≤ x.toBits.toNat

/-- The eleven bits of the exponent; all of them are set in infinities and in what is no number. -/
def exponentField (x : Float) : Nat := x.toBits.toNat / exponentUnit % 2048

/-- The lowest 52 bits. -/
def fractionField (x : Float) : Nat := x.toBits.toNat % exponentUnit

/-- The significand as a whole number: the leading one is there unless the exponent field is
zero. -/
def significand (x : Float) : Nat :=
  if exponentField x = 0 then fractionField x else fractionField x + exponentUnit

/-- The rational that a finite double denotes. -/
def toRat? (x : Float) : Option Rat :=
  let e := exponentField x
  if e = 2047 then none
  else
    let size := mkRat (significand x * Nat.pow 2 (e - 1075) : Nat) (Nat.pow 2 (1075 - max e 1))
    some (if isNegative x then -size else size)

/-- A double that is not finite, in writing. -/
def specialText (x : Float) : String :=
  if fractionField x ≠ 0 then "nan" else if isNegative x then "-inf" else "inf"

/-- The bits of the double nearest to `num / den`, without a sign.  The significand is scaled by
`2 ^ scale`; the exponent field and the fraction follow from it by a sum, in which a significand
that was rounded up to `2 ^ 53` carries over. -/
def nearestBits (num den : Nat) : Nat :=
  let scale := max (floorLog 2 num den - 52) (-1074)
  let (n, d) := scaleQuotient 2 num den (-scale)
  (scale + 1074).toNat * exponentUnit + roundHalfEven n d

/-- The double nearest to a rational, unless it would lie beyond the largest one. -/
def ofRat? (q : Rat) : Option Float :=
  if q.num = 0 then some (Float.ofBits 0)
  else
    let bits := nearestBits q.num.natAbs q.den
    if 2047 * exponentUnit ≤ bits then none
    else some (Float.ofBits (UInt64.ofNat (if q.num < 0 then signUnit + bits else bits)))

end ExactSimplex.Double
