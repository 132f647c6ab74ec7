import ExactSimplex.Number.Digits
import ExactSimplex.Number.Double

/-! The general format for doubles in labels: six significant digits, halves to the even digit,
positional from `1e-4` up to a million and scientific outside, without zeros at the end of a
fraction. -/

namespace ExactSimplex.General

/-- How many significant digits are written. -/
def precision : Nat := 6

/-- Digits in positional or in scientific form, by their exponent. -/
def render (d : Digits) : List Char :=
  let digits := d.chars
  if d.exponent < -4 || (precision : Int) ≤ d.exponent then
    digits.take 1 ++ fractionText (digits.drop 1) ++ exponentText d.exponent
  else if d.exponent < 0 then
    ['0', '.'] ++ List.replicate (-d.exponent - 1).toNat '0' ++ digits
  else
    let places := d.exponent.toNat + 1
    digits.take places ++ List.replicate (places - digits.length) '0' ++
      fractionText (digits.drop places)

/-- A double in the general format. -/
def text (x : Float) : String :=
  match Double.toRat? x with
  | none => Double.specialText x
  | some q =>
    let size := if q.num = 0 then ['0'] else render (Digits.nearest q.num.natAbs q.den precision)
    String.ofList (if Double.isNegative x then '-' :: size else size)

end ExactSimplex.General
