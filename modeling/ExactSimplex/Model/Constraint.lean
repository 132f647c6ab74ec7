import ExactSimplex.Value.Shown

/-! A linear constraint: coefficients, a relation and a right-hand side.  Its normal form has a
right-hand side that is not negative. -/

namespace ExactSimplex

/-- The sum of the products of two lists, place by place. -/
def dot : List Rat → List Rat → Rat
  | a :: as, x :: xs => a * x + dot as xs
  | _, _ => 0

/-- The relation that a value is or that its text names.  The texts of the other kinds name none;
they are made all the same, which may fail. -/
def Relation.ofValue (digits : DigitLimit) : Value → Except Error Relation
  | .relation r => .ok r
  | .text t => parse t
  | .foreign o => parse o.text
  | v => do
    let _ ← v.shown digits
    throw .unknownRelation

/-- Coefficients and a right-hand side, with a relation between the two sides. -/
structure Constraint where
  coefficients : List Rat
  relation : Relation
  rhs : Rat
deriving DecidableEq, Repr

namespace Constraint

/-- Both sides with the opposite signs, and the relation turned round. -/
def negated (c : Constraint) : Constraint :=
  ⟨c.coefficients.map (-·), c.relation.converse, -c.rhs⟩

theorem negated_negated (c : Constraint) : c.negated.negated = c := by
  simp only [negated, Relation.converse_converse, List.map_map, Function.comp_def, Rat.neg_neg,
    List.map_id']

/-- The constraint itself, or with the sides negated if its right-hand side is negative. -/
def normalized (c : Constraint) : Constraint := if 0 ≤ c.rhs then c else c.negated

theorem rhs_normalized_nonneg (c : Constraint) : 0 ≤ c.normalized.rhs := by
  unfold normalized
  split
  · assumption
  · simp only [negated]
    grind

theorem normalized_normalized (c : Constraint) : c.normalized.normalized = c.normalized := by
  rw [normalized, if_pos c.rhs_normalized_nonneg]

/-- Coefficients, relation and right-hand side from values, read in this order. -/
def ofValues (digits : DigitLimit) (coefficients relation rhs : Value) :
    Except Error Constraint := do
  let coefficients ← coefficients.rationals digits
  let relation ← Relation.ofValue digits relation
  return ⟨coefficients, relation, ← rhs.toRational digits⟩

/-- The point `x` satisfies the constraint. -/
def Holds (c : Constraint) (x : List Rat) : Prop := c.relation.Holds (dot c.coefficients x) c.rhs

instance (c : Constraint) (x : List Rat) : Decidable (c.Holds x) :=
  inferInstanceAs (Decidable (Relation.Holds _ _ _))

end Constraint

end ExactSimplex
