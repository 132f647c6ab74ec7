import ExactSimplex.Number.Digits
import ExactSimplex.Number.Double

/-! The shortest decimal text that reads back as a given double.  For more and more digits, the two
neighbours of the double on the decimal grid are read back; the first grid on which one of them
gives the double decides, and of two the nearer is taken.  Seventeen digits always do.  Numbers from
`1e-4` up to `1e16` are written positionally, the others with an exponent. -/

namespace ExactSimplex.Shortest

/-- Whether digits round to the double with the bits `bits`. -/
def readsBack (bits count : Nat) (d : Digits) : Bool :=
  d.number ≠ 0 &&
    (let (n, m) := scaleQuotient 10 d.number 1 (d.exponent - (count - 1 : Nat))
    Double.nearestBits n m = bits)

/-- The neighbours of `num / den` on the grid of `count` digits, the nearer one first. -/
def neighbours (num den count : Nat) : List Digits :=
  let (e, n, d) := Digits.grid num den count
  let low := n / d
  let near := roundHalfEven n d
  [⟨e, near⟩, ⟨e, if near = low then low + 1 else low⟩].map (Digits.carry count)

/-- A neighbour on the grid of `count` digits that reads back as the double. -/
def onGrid? (bits num den count : Nat) : Option Digits :=
  (neighbours num den count).find? (readsBack bits count)

/-- The fewest digits that read back as the double with the bits `bits`. -/
def digits (bits num den : Nat) : Digits :=
  ((List.range 17).findSome? fun k => onGrid? bits num den (k + 1)).getD
    (Digits.nearest num den 17)

/-- Digits in positional form, always with a fraction, or in scientific form. -/
def render (d : Digits) : List Char :=
  let digits := d.chars
  if d.exponent < -4 || 16 ≤ d.exponent then
    digits.take 1 ++ fractionText (digits.drop 1) ++ exponentText d.exponent
  else if d.exponent < 0 then
    ['0', '.'] ++ List.replicate (-d.exponent - 1).toNat '0' ++ digits
  else
    let places := d.exponent.toNat + 1
    let fraction := digits.drop places
    digits.take places ++ List.replicate (places - digits.length) '0' ++ '.' ::
      (if fraction.isEmpty then ['0'] else fraction)

/-- The shortest text of a double. -/
def text (x : Float) : String :=
  match Double.toRat? x with
  | none => Double.specialText x
  | some q =>
    let num := q.num.natAbs
    let size :=
      if num = 0 then ['0', '.', '0']
      else render (digits (Double.nearestBits num q.den) num q.den)
    String.ofList (if Double.isNegative x then '-' :: size else size)

end ExactSimplex.Shortest
