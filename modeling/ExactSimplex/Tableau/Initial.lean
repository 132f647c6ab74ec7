import ExactSimplex.Model.Program
import ExactSimplex.Tableau.Basic

/-! The tableau that a run starts from.  Behind the variables of the program stand a slack for each
row of the form `≤`, a surplus for each of the form `≥`, and then an artificial variable for each
row that is not of the form `≤`.  The artificial variables and the slacks are basic, and the
objective row asks for the least sum of the artificial variables. -/

namespace ExactSimplex

/-- A column behind the variables of the program, by the row that it belongs to. -/
inductive Auxiliary where
  | slack (row : Nat)
  | surplus (row : Nat)
  | artificial (row : Nat)
deriving DecidableEq, Repr

namespace Auxiliary

/-- A letter for the kind, and the number of the row counted from one. -/
def name : Auxiliary → String
  | slack row => s!"s{row + 1}"
  | surplus row => s!"e{row + 1}"
  | artificial row => s!"a{row + 1}"

/-- The entry of an auxiliary column in row `i`. -/
def coefficient (i : Nat) : Auxiliary → Rat
  | slack row => if row = i then 1 else 0
  | surplus row => if row = i then -1 else 0
  | artificial row => if row = i then 1 else 0

/-- The slacks and surpluses of rows in normal form, in the order of the rows. -/
def differences (cs : List Constraint) : List Auxiliary :=
  cs.zipIdx.filterMap fun (c, i) =>
    match c.relation with
    | .atMost => some (slack i)
    | .atLeast => some (surplus i)
    | .equal => none

/-- The artificial variables of rows in normal form, in the order of the rows. -/
def artificials (cs : List Constraint) : List Auxiliary :=
  cs.zipIdx.filterMap fun (c, i) =>
    match c.relation with
    | .atMost => none
    | .atLeast | .equal => some (artificial i)

/-- All auxiliary columns, the artificial ones last. -/
def all (cs : List Constraint) : List Auxiliary := differences cs ++ artificials cs

/-- The column that is basic at first in the row of a constraint. -/
def basic (c : Constraint) (i : Nat) : Auxiliary :=
  if c.relation = .atMost then slack i else artificial i

end Auxiliary

namespace Tableau

/-- The first constraint with the wrong number of coefficients, as the error that reports it. -/
def checkLengths (numVars : Nat) (cs : List Constraint) : Except Error Unit :=
  match cs.zipIdx.find? fun (c, _) => c.coefficients.length ≠ numVars with
  | some (c, i) => .error (.rowLengthAt (i + 1) c.coefficients.length numVars)
  | none => .ok ()

/-- The equation of a constraint in normal form. -/
def initialRow (columns : List Auxiliary) (c : Constraint) (i : Nat) : Row :=
  ⟨c.coefficients ++ columns.map (·.coefficient i), c.rhs⟩

/-- The objective row for the least sum of the artificial columns, which start at `first`: the
indicator of those columns less each row in which one of them is basic. -/
def artificialObjective (first count : Nat) (basis : List Nat) (rows : List Row) : Row :=
  (basis.zip rows).foldl (fun z (b, r) => if first ≤ b then z.addMultiple (-1) r else z)
    ⟨List.replicate first 0 ++ List.replicate count 1, 0⟩

/-- The first tableau for constraints in normal form. -/
def ofConstraints (numVars : Nat) (cs : List Constraint) : Tableau :=
  let columns := Auxiliary.all cs
  let rows := cs.mapIdx fun i c => initialRow columns c i
  let basis := cs.mapIdx fun i c => numVars + columns.idxOf (Auxiliary.basic c i)
  { rows
    objective := artificialObjective (numVars + (Auxiliary.differences cs).length)
      (Auxiliary.artificials cs).length basis rows
    basis
    names := (List.range numVars).map (fun j => s!"x{j + 1}") ++ columns.map Auxiliary.name
    steps := 0 }

end Tableau

namespace LinearProgram

/-- How many artificial variables a program needs. -/
def artificialCount (lp : LinearProgram) : Nat :=
  (Auxiliary.artificials lp.normalized.constraints).length

/-- The first tableau of a program, unless one of its constraints has the wrong length. -/
def initialTableau (lp : LinearProgram) : Except Error Tableau := do
  let cs := lp.normalized.constraints
  Tableau.checkLengths lp.numVars cs
  return Tableau.ofConstraints lp.numVars cs

end LinearProgram

end ExactSimplex
