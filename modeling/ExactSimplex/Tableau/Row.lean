import ExactSimplex.Model.Constraint

/-! Rows of a tableau: linear equations, their coefficients before their right-hand side. -/

namespace ExactSimplex

/-- The first `count` items, or for a negative number all but the last `-count`. -/
def front {α : Type} (count : Int) (xs : List α) : List α :=
  if 0 ≤ count then xs.take count.toNat else xs.take (xs.length - (-count).toNat)

/-- A row by its coefficients and its right-hand side. -/
structure Row where
  coefficients : List Rat
  rhs : Rat
deriving DecidableEq, Repr

namespace Row

/-- All entries, the right-hand side last. -/
def entries (r : Row) : List Rat := r.coefficients ++ [r.rhs]

/-- Entry `j`, the column after the coefficients being the right-hand side. -/
def entry (r : Row) (j : Nat) : Rat := r.entries.getD j 0

/-- Whether a point solves the equation of a row. -/
def Holds (r : Row) (x : List Rat) : Prop := dot r.coefficients x = r.rhs

/-- Every entry divided by `k`. -/
def divide (r : Row) (k : Rat) : Row := ⟨r.coefficients.map (· / k), r.rhs / k⟩

/-- The row plus `k` times the row `p`, entry by entry. -/
def addMultiple (r : Row) (k : Rat) (p : Row) : Row :=
  ⟨List.zipWith (fun v w => v + k * w) r.coefficients p.coefficients, r.rhs + k * p.rhs⟩

/-- The row less the multiple of `p` that makes entry `j` zero, for a `p` with a one there. -/
def clear (r : Row) (j : Nat) (p : Row) : Row :=
  if r.entry j = 0 then r else r.addMultiple (-r.entry j) p

/-- A row from all its entries, the last of which is the right-hand side. -/
def ofEntries (entries : List Rat) : Row := ⟨entries.dropLast, entries.getLast?.getD 0⟩

/-- The first `count` entries before the right-hand side. -/
def front (r : Row) (count : Int) : Row := ⟨ExactSimplex.front count r.entries, r.rhs⟩

end Row

end ExactSimplex
