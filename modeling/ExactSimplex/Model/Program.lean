import ExactSimplex.Model.Constraint

/-! Linear programs: an objective to maximise or minimise over the points with no negative
coordinate that satisfy the constraints.  The order of the constraints matters, since it fixes the
order of the rows of the tableau. -/

namespace ExactSimplex

/-- An objective, whether its greatest value is sought or its least, and constraints. -/
structure LinearProgram where
  objective : List Rat
  maximize : Bool
  constraints : List Constraint
deriving DecidableEq, Repr

namespace LinearProgram

/-- How many variables there are. -/
def numVars (lp : LinearProgram) : Nat := lp.objective.length

/-- How many constraints there are. -/
def numConstraints (lp : LinearProgram) : Nat := lp.constraints.length

/-- The objective whose greatest value is sought. -/
def maxObjective (lp : LinearProgram) : List Rat :=
  if lp.maximize then lp.objective else lp.objective.map (-·)

/-- Every constraint has as many coefficients as the objective. -/
def WellShaped (lp : LinearProgram) : Prop :=
  ∀ c ∈ lp.constraints, c.coefficients.length = lp.numVars

instance (lp : LinearProgram) : Decidable lp.WellShaped :=
  inferInstanceAs (Decidable (∀ c ∈ lp.constraints, _))

/-- The point `x` has one coordinate for each variable, none of them negative, and satisfies all
constraints. -/
def Feasible (lp : LinearProgram) (x : List Rat) : Prop :=
  x.length = lp.numVars ∧ (∀ v ∈ x, 0 ≤ v) ∧ ∀ c ∈ lp.constraints, c.Holds x

/-- The value of the objective at a point. -/
def valueAt (lp : LinearProgram) (x : List Rat) : Rat := dot lp.objective x

/-- Appends a constraint that has as many coefficients as the objective. -/
def addConstraint (lp : LinearProgram) (c : Constraint) : Except Error LinearProgram :=
  if c.coefficients.length = lp.numVars then
    .ok { lp with constraints := lp.constraints ++ [c] }
  else .error (.rowLength c.coefficients.length lp.numVars)

/-- A program with the given constraints, added one after the other. -/
def create (objective : List Rat) (maximize : Bool) (constraints : List Constraint) :
    Except Error LinearProgram :=
  constraints.foldlM addConstraint ⟨objective, maximize, []⟩

/-- The program with its constraints in normal form. -/
def normalized (lp : LinearProgram) : LinearProgram :=
  { lp with constraints := lp.constraints.map Constraint.normalized }

/-- The program with more constraints behind, whose lengths are not checked. -/
def append (lp : LinearProgram) (cs : List Constraint) : LinearProgram :=
  { lp with constraints := lp.constraints ++ cs }

end LinearProgram

end ExactSimplex
