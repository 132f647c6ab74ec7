import ExactSimplex.Model.Draft
import ExactSimplex.Solver

/-! Sessions: what is done to a draft, one operation after the other.  An operation may fail, and
the session goes on from the draft as it then is. -/

namespace ExactSimplex.Draft

/-- Something that is done to a draft. -/
inductive Operation where
  /-- Add a constraint that has as many coefficients as the objective. -/
  | add (c : Constraint)
  /-- Add a constraint of any length. -/
  | append (c : Constraint)
  | assign (name : Text) (v : Value)
  /-- Put the draft under a class without rules, by an assignment as well. -/
  | recast
  /-- Put other constraints in the place of those that there are. -/
  | replace (cs : List Constraint)
  | normalize
  | solve (limit : StepLimit)

/-- What an operation does to a draft, and the run if it solves the program. -/
def perform : Operation → Change (Option Run)
  | .add c => do
    addConstraint c
    return none
  | .append c => do
    append c
    return none
  | .assign name v => do
    assign name (.value v)
    return none
  | .recast => do
    assign "__class__" .bareClass
    return none
  | .replace cs => do
    assign "constraints" (.constraints cs)
    return none
  | .normalize => do
    normalize
    return none
  | .solve limit => do
    return some (← check (limit.solve (← program)))

/-- The draft after a session. -/
def after (d : Draft) : List Operation → Draft
  | [] => d
  | op :: ops => ((perform op).on d).2.after ops

end ExactSimplex.Draft
