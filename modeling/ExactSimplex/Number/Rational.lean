import ExactSimplex.Text.DigitLimit

/-! Rational numbers as the rest of the library uses them: made from a numerator and a denominator,
compared by cross-multiplication, read from a literal and written as one.  A literal is a whole
number, or two of them with a slash between, each with an optional sign, and blanks anywhere but
inside a number.  Lowest terms and a positive denominator come with the type `Rat`. -/

namespace ExactSimplex.Rational

/-- The rational with a numerator and a denominator, unless the denominator is zero. -/
def ofRatio (num den : Int) : Except Error Rat :=
  if den = 0 then .error .zeroDenominator else .ok (Rat.divInt num den)

/-- The quotient, unless the divisor is zero. -/
def divide (a b : Rat) : Except Error Rat :=
  if b = 0 then .error .divisionByZero else .ok (a / b)

/-- Minus one, zero or one, as `a` is less than, equal to or greater than `b`. -/
def compare (a b : Rat) : Int :=
  let left := a.num * b.den
  let right := b.num * a.den
  if left < right then -1 else if right < left then 1 else 0

/-- The numerator alone for a whole number, otherwise the two parts with a slash between. -/
def text (q : Rat) : String :=
  if q.den = 1 then toString q.num else s!"{q.num}/{q.den}"

/-- The text of a rational, if its parts can be written. -/
def write (limit : DigitLimit) (q : Rat) : Except Error String := do
  let num ← limit.write q.num
  if q.den = 1 then return num
  let den ← limit.write q.den
  return s!"{num}/{den}"

/-- A rational as messages show it. -/
def describe (limit : DigitLimit) (q : Rat) : Except Error String := do
  let num ← limit.write q.num
  let den ← limit.write q.den
  return s!"ExactRational({num}, {den})"

/-- The numerator and the denominator of a literal as they are written, the second of them only
behind a slash. -/
def readLiteral (cs : List Char) : Option (Text.Written × Option Text.Written) :=
  match Text.readInt (cs.dropWhile Text.isBlank) with
  | none => none
  | some (num, afterNum) =>
    match afterNum.dropWhile Text.isBlank with
    | [] => some (num, none)
    | '/' :: tail =>
      match Text.readInt (tail.dropWhile Text.isBlank) with
      | none => none
      | some (den, afterDen) => if afterDen.all Text.isBlank then some (num, some den) else none
    | _ => none

/-- The rational of a literal.  Its form is looked at first, then its two numbers are read, and the
denominator is one where none is written. -/
def parse (limit : DigitLimit) (literal : Text) : Except Error Rat :=
  match literal.chars?.bind readLiteral with
  | none => .error (.malformedLiteral literal)
  | some (num, den) => do
    let a ← limit.read num
    let b ← (den.map limit.read).getD (.ok 1)
    ofRatio a b

end ExactSimplex.Rational
