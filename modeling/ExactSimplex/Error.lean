import ExactSimplex.Text.Quoted

/-! What can go wrong, by cause, and the wording of each cause. -/

namespace ExactSimplex

inductive Error where
  /-- A ratio was asked for with denominator zero. -/
  | zeroDenominator
  /-- The same for a ratio from elsewhere. -/
  | zeroDivisor
  | divisionByZero
  | malformedLiteral (text : Text)
  /-- A number that stands for no rational. -/
  | notFinite (shown : String)
  /-- A whole number with more digits than may be written or read. -/
  | tooManyDigits
  | notWhole
  /-- A decimal that is malformed, or whose exponent is out of range. -/
  | malformedDecimal
  /-- A value of a kind that holds no number. -/
  | notNumeric (kind : String)
  /-- A value of a kind for which the operation has no meaning. -/
  | unsupported
  /-- A named operation of the rationals, used with something else. -/
  | noSuchOperation
  | tooLarge
  | emptyCollection
  | outOfRange
  | notPair
  | unknownRelation
  | missingField (name : String)
  /-- Rows, right-hand sides and relations that are not equally many. -/
  | unequalLengths
  /-- A constraint whose coefficients do not match the objective. -/
  | rowLength (found expected : Nat)
  /-- The same, found in a program, with the number of the constraint counted from one. -/
  | rowLengthAt (row found expected : Nat)
  | fixedAttribute (name : String)
  | derivedAttribute
  | zeroPivot
  | nonPositiveCount
  /-- Something recorded as an outcome that is none. -/
  | unknownOutcome (shown : String)
  | malformedJson
  | tooDeep
  | impossiblePath
deriving DecidableEq, Repr

/-- The wording of a cause; some have none. -/
def Error.message : Error → Option String
  | .zeroDenominator => some "Denominator cannot be zero."
  | .divisionByZero => some "Division by zero."
  | .malformedLiteral text => some ("Invalid rational format: " ++ Text.quoted text)
  | .notFinite shown => some ("Not a finite number: " ++ shown)
  | .notWhole => some "numerator and denominator must be integers"
  | .notNumeric kind => some ("Cannot convert " ++ kind ++ " to ExactRational")
  | .unknownRelation => some "sense must be one of <=, >=, ="
  | .missingField name => some ("missing LP field: " ++ Text.quoted name)
  | .unequalLengths => some "A, b and senses must have the same length"
  | .rowLength found expected =>
    some s!"constraint has {found} coefficients, objective has {expected}"
  | .rowLengthAt row found expected =>
    some s!"constraint {row} has {found} coefficients, objective has {expected}"
  | .fixedAttribute name => some (name ++ " is fixed at construction")
  | .zeroPivot => some "Zero pivot encountered"
  | .nonPositiveCount => some "program_count must be positive"
  | .unknownOutcome shown => some ("unknown outcome: " ++ shown)
  | .zeroDivisor | .tooManyDigits | .malformedDecimal | .unsupported | .noSuchOperation
  | .tooLarge | .emptyCollection | .outOfRange | .notPair | .derivedAttribute | .malformedJson
  | .tooDeep | .impossiblePath => none

end ExactSimplex
