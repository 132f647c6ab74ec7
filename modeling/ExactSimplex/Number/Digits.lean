import ExactSimplex.Number.Rounding

/-! Decimal digits of a quotient: the exponent of the first digit together with a fixed number of
digits, and the pieces of text that the formats for doubles share. -/

namespace ExactSimplex

/-- Digits as one number, and the power of ten of the first of them. -/
structure Digits where
  exponent : Int
  number : Nat
deriving DecidableEq, Repr

namespace Digits

/-- The digits of a number that may have been rounded up to one digit more than `count`. -/
def carry (count : Nat) (d : Digits) : Digits :=
  if d.number = Nat.pow 10 count then ⟨d.exponent + 1, Nat.pow 10 (count - 1)⟩ else d

/-- The quotient `num / den` in units of the last of `count` digits, with the exponent of the first:
the exponent and the two parts of the quotient. -/
def grid (num den count : Nat) : Int × Nat × Nat :=
  let e := floorLog 10 num den
  (e, scaleQuotient 10 num den ((count - 1 : Nat) - e))

/-- The quotient `num / den` to `count` digits, halves to the even digit. -/
def nearest (num den count : Nat) : Digits :=
  let (e, n, d) := grid num den count
  carry count ⟨e, roundHalfEven n d⟩

/-- The digits without the zeros at the end. -/
def chars (d : Digits) : List Char :=
  ((Nat.toDigits 10 d.number).reverse.dropWhile (· = '0')).reverse

end Digits

/-- An exponent of ten: the letter, the sign and at least two digits. -/
def exponentText (e : Int) : List Char :=
  let digits := Nat.toDigits 10 e.natAbs
  'e' :: (if e < 0 then '-' else '+') :: List.replicate (2 - digits.length) '0' ++ digits

/-- A point and the digits after it; nothing when there are none. -/
def fractionText : List Char → List Char
  | [] => []
  | digits => '.' :: digits

end ExactSimplex
