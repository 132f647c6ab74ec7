import ExactSimplex.Model.Program

/-! Programs as records, the form in which models are stored: `c` holds the objective, `A` the rows
of coefficients, `b` the right-hand sides, `senses` the relations, and `maximize` the sense, which
is true when it is missing. -/

namespace ExactSimplex.LinearProgram

/-- Refuses a model that lacks one of the fields, naming the first. -/
def requireFields (model : Value) : List String → Except Error Unit
  | [] => .ok ()
  | name :: names => do
    if ← model.has name then requireFields model names else .error (.missingField name)

/-- The sense of a model, by the truth of its field. -/
def senseOf (model : Value) : Bool :=
  match model.get "maximize" with
  | .ok v => v.isTruthy
  | .error _ => true

/-- Adds the constraints of rows, right-hand sides and relations of equal number. -/
def addRows (digits : DigitLimit) (lp : LinearProgram) : List Value → List Value → List Value →
    Except Error LinearProgram
  | row :: rows, rhs :: rhss, sense :: senses => do
    let c ← Constraint.ofValues digits row sense rhs
    addRows digits (← lp.addConstraint c) rows rhss senses
  | _, _, _ => .ok lp

/-- The program that a value describes.  The missing fields are looked for first, then the numbers
of rows, right-hand sides and relations are compared, then the objective is read, then one row
after the other. -/
def ofValue (digits : DigitLimit) (model : Value) : Except Error LinearProgram := do
  requireFields model ["c", "A", "b", "senses"]
  let rows ← (← model.get "A").items
  let rhss ← (← model.get "b").items
  if rows.length ≠ rhss.length then throw .unequalLengths
  let senses ← (← model.get "senses").items
  if rhss.length ≠ senses.length then throw .unequalLengths
  let objective ← (← model.get "c").rationals digits
  addRows digits ⟨objective, senseOf model, []⟩ rows rhss senses

/-- The texts of numbers, as a list. -/
def numberTexts (digits : DigitLimit) (qs : List Rat) : Except Error Value := do
  let texts ← qs.mapM (Rational.write digits)
  return .list (texts.map fun s : String => .text s)

/-- The record of a program, if its numbers can be written. -/
def toValue (digits : DigitLimit) (lp : LinearProgram) : Except Error Value := do
  let objective ← numberTexts digits lp.objective
  let rows ← lp.constraints.mapM fun c => numberTexts digits c.coefficients
  let rhs ← numberTexts digits (lp.constraints.map (·.rhs))
  return .record
    [("c", objective), ("A", .list rows), ("b", rhs),
      ("senses", .list (lp.constraints.map fun c => .text c.relation.sign)),
      ("maximize", .bool lp.maximize)]

end ExactSimplex.LinearProgram
