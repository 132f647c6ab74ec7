import ExactSimplex.Number.Hash
import ExactSimplex.Value

/-! Whether two values hash alike.  Numbers hash to integers; the rationals of this library hash by
their two parts, all other numbers by their value.  Texts hash alike only if they are equal, but the
empty text hashes like zero; a relation hashes like its name.  Lists and records have no hash. -/

namespace ExactSimplex

/-- The hash of a value, as far as it can be compared. -/
inductive Hash where
  | number (n : Int)
  | text (t : Text)
  | null
  | unique
deriving DecidableEq, Repr

namespace Value

/-- The hash of a value, if it has one. -/
def hash : Value → Except Error Hash
  | null => .ok .null
  | bool b => .ok (.number (if b then 1 else 0))
  | int n => .ok (.number (Rational.hashInt n))
  | text t => .ok (if t.isEmpty then .number 0 else .text t)
  | list _ | record _ => .error .unsupported
  | rational q => .ok (.number (Rational.hash q))
  | fraction q => .ok (.number (Rational.hashValue q))
  | decimal (.finite negative coefficient exponent) =>
    .ok (.number (Rational.hashDecimal negative coefficient exponent))
  | decimal (.infinite negative) =>
    .ok (.number (if negative then -Rational.hashInfinity else Rational.hashInfinity))
  | decimal (.notANumber _ signalling _) => if signalling then .error .unsupported else .ok .unique
  | double x =>
    match Double.toRat? x with
    | some q => .ok (.number (Rational.hashValue q))
    | none =>
      if x.isNaN then .ok .unique
      else .ok (.number (if x < 0 then -Rational.hashInfinity else Rational.hashInfinity))
  | relation r => .ok (.text r.name)
  | foreign _ => .ok .unique

/-- Whether two values have one hash. -/
def sameHash (a b : Value) : Except Error Bool := do
  let first ← a.hash
  let second ← b.hash
  return first = second ∧ first ≠ .unique

end Value

end ExactSimplex
