import ExactSimplex.Tableau.Row

/-! The tableau of the simplex method: one row for each constraint, the objective row, and the
column that is basic in each row.  The entering column has the most negative objective entry, the
leaving row the least ratio of right-hand side to entry; of several the first is taken, which fixes
the path that every run follows.  `optimize` pivots until no column enters, no row can leave, or
the limit of steps is reached. -/

namespace ExactSimplex

/-- Equations, an objective row, the basic column of each row, and how many steps were taken. -/
structure Tableau where
  rows : List Row
  /-- The objective row; its right-hand side is the present value. -/
  objective : Row
  basis : List Nat
  names : List String
  steps : Nat
deriving DecidableEq, Repr

namespace Tableau

/-- How many columns stand before the right-hand side. -/
def width (t : Tableau) : Nat := t.objective.coefficients.length

/-- The present value of the objective. -/
def value (t : Tableau) : Rat := t.objective.rhs

/-- The first index whose number is least. -/
def firstLeast : List (Nat × Rat) → Option Nat
  | [] => none
  | first :: others =>
    some (others.foldl (fun best next => if next.2 < best.2 then next else best) first).1

/-- The columns with a negative objective entry, each with that entry. -/
def improving (t : Tableau) : List (Nat × Rat) :=
  t.objective.coefficients.zipIdx.filterMap fun (v, j) => if v < 0 then some (j, v) else none

/-- The column that enters: the first with the most negative objective entry. -/
def entering (t : Tableau) : Option Nat := firstLeast t.improving

/-- The rows with a positive entry in column `j`, each with its ratio. -/
def ratios (t : Tableau) (j : Nat) : List (Nat × Rat) :=
  t.rows.zipIdx.filterMap fun (r, i) =>
    if 0 < r.entry j then some (i, r.rhs / r.entry j) else none

/-- The row that leaves for column `j`: the first with the least ratio. -/
def leaving (t : Tableau) (j : Nat) : Option Nat := firstLeast (t.ratios j)

/-- The entry of row `i` in column `j`, zero where there is none. -/
def entry (t : Tableau) (i j : Nat) : Rat := (t.rows[i]?.map (·.entry j)).getD 0

/-- Column `j` made the unit column of row `i`, where its entry is not zero. -/
def eliminate (t : Tableau) (i j : Nat) : Tableau :=
  match t.rows[i]? with
  | none => t
  | some r =>
    let p := r.divide (r.entry j)
    { t with
      rows := t.rows.mapIdx fun k q => if k = i then p else q.clear j p
      objective := t.objective.clear j p
      basis := t.basis.set i j }

/-- Pivots on row `i` and column `j`, whose common entry must not be zero. -/
def pivot (t : Tableau) (i j : Nat) : Except Error Tableau :=
  if t.entry i j = 0 then .error .zeroPivot else .ok (t.eliminate i j)

/-- How one step ends. -/
inductive Step where
  /-- No column enters: the present value is the greatest. -/
  | optimal
  /-- A column enters and no row can leave. -/
  | unbounded
  | pivoted (next : Tableau)

/-- One step of the method: the choice of column and row, and the pivot. -/
def step (t : Tableau) : Except Error Step :=
  match t.entering with
  | none => .ok .optimal
  | some j =>
    match t.leaving j with
    | none => .ok .unbounded
    | some i => (t.pivot i j).map .pivoted

/-- The tableau with one more step counted. -/
def counted (t : Tableau) : Tableau := { t with steps := t.steps + 1 }

/-- At most `turns` steps; whether the last of them found that no column enters, and the tableau
then. -/
def run : Nat → Tableau → Except Error (Bool × Tableau)
  | 0, t => .ok (false, t)
  | turns + 1, t => do
    match ← t.counted.step with
    | .optimal => return (true, t.counted)
    | .unbounded => return (false, t.counted)
    | .pivoted next => run turns next

/-- How many steps a limit leaves when `steps` have been taken: one at least, since the limit is
looked at after a pivot only. -/
def turnsLeft (limit : Int) (steps : Nat) : Nat := max 1 (limit - steps).toNat

/-- Pivots until no column enters; false when the method gets stuck or reaches the limit first. -/
def optimize (t : Tableau) (limit : Int) : Except Error (Bool × Tableau) :=
  run (turnsLeft limit t.steps) t

/-- The tableau without the last `count` columns before the right-hand side.  To drop more columns
than there are leaves a negative number, which counts from the end of the entries. -/
def dropColumns (t : Tableau) (count : Int) : Tableau :=
  let kept := t.width - count
  { t with
    rows := t.rows.map (·.front kept)
    objective := t.objective.front kept
    names := front kept t.names }

end Tableau

end ExactSimplex
