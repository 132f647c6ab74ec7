import ExactSimplex.Model.Program
import ExactSimplex.Tableau.Basic

/-! The objective of a program in its tableau: the objective row for the present basis, and the
point and value that are read off. -/

namespace ExactSimplex.Tableau

/-- Whether the artificial variables sum to zero, in a tableau that minimises them. -/
def isFeasible (t : Tableau) : Bool := t.value = 0

/-- The objective row of a program before any reduction: the negated objective, and zeros up to the
width of the tableau and in the right-hand side. -/
def plainObjective (t : Tableau) (lp : LinearProgram) : Row :=
  .ofEntries (lp.maxObjective.map (-·) ++ List.replicate (t.width + 1 - lp.numVars) 0)

/-- The objective row of a program, reduced so that it is zero in the basic columns. -/
def reducedObjective (t : Tableau) (lp : LinearProgram) : Row :=
  (t.basis.zip t.rows).foldl
    (fun z (b, r) =>
      let c := lp.maxObjective.getD b 0
      if b < lp.numVars ∧ c ≠ 0 then z.addMultiple c r else z)
    (t.plainObjective lp)

/-- The tableau with the objective row of a program in place of its own, if its rows have an entry
for each variable. -/
def withObjective (t : Tableau) (lp : LinearProgram) : Except Error Tableau :=
  if lp.numVars ≤ t.width + 1 then .ok { t with objective := t.reducedObjective lp }
  else .error .outOfRange

/-- The value of column `j` at the basic point: the right-hand side of the last row in which it is
basic, zero if there is none. -/
def valueOf (t : Tableau) (j : Nat) : Rat :=
  (t.basis.zip t.rows).foldl (fun v (b, r) => if b = j then r.rhs else v) 0

/-- The values of the variables of a program at the basic point. -/
def point (t : Tableau) (lp : LinearProgram) : List Rat := (List.range lp.numVars).map t.valueOf

/-- The value in the sense of the program, which may be to minimise. -/
def objectiveValue (t : Tableau) (lp : LinearProgram) : Rat :=
  if lp.maximize then t.value else -t.value

end ExactSimplex.Tableau
