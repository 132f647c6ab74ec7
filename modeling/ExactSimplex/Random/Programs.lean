import ExactSimplex.Model.Program
import ExactSimplex.Random.Stream

/-! Random linear programs from a stream.  The objective comes first, then one constraint after the
other: its coefficients, each of which is zero unless a draw falls below a given chance, its
relation and its right-hand side.  Every function takes the stream where it stands and returns it
where it stops. -/

namespace ExactSimplex

/-- The shape of the programs, and the chances that decide about their constraints. -/
structure ProgramShape where
  variableCount : Int := 50
  constraintCount : Int := 50
  nonzeroChance : Float := 0.2
  equalChance : Float := 0.05
  atLeastChance : Float := 0.1

namespace ProgramShape

/-- Fifty variables, fifty constraints and the usual chances. -/
def standard : ProgramShape := {}

/-- Whether shape and chances are the standard ones; a chance that is no number is not. -/
def isStandard (p : ProgramShape) : Bool :=
  p.variableCount = standard.variableCount && p.constraintCount = standard.constraintCount &&
    p.nonzeroChance == standard.nonzeroChance && p.equalChance == standard.equalChance &&
    p.atLeastChance == standard.atLeastChance

end ProgramShape

namespace Stream

/-- A whole number from `center - 128` to `center + 127`. -/
def drawCoefficient (center : Int) (s : Stream) : Rat × Stream :=
  ((s.next.offset center : Rat), s.next)

/-- A double from zero to one. -/
def drawFraction (s : Stream) : Float × Stream := (s.next.fraction, s.next)

/-- A relation: `=` below the first chance, `≥` below the sum of the two. -/
def drawRelation (p : ProgramShape) (s : Stream) : Relation × Stream :=
  let (x, s) := s.drawFraction
  let relation : Relation :=
    if x < p.equalChance then .equal
    else if x < p.equalChance + p.atLeastChance then .atLeast
    else .atMost
  (relation, s)

/-- A coefficient of a constraint: a draw of its own if the first draw falls below the chance. -/
def drawSparse (p : ProgramShape) (s : Stream) : Rat × Stream :=
  let (x, s) := s.drawFraction
  if x < p.nonzeroChance then s.drawCoefficient 64 else (0, s)

/-- Draws `count` times, each time where the last draw stopped. -/
def drawMany {α : Type} (draw : Stream → α × Stream) : Nat → Stream → List α × Stream
  | 0, s => ([], s)
  | count + 1, s =>
    let (x, s) := draw s
    let (xs, s) := drawMany draw count s
    (x :: xs, s)

theorem length_drawMany {α : Type} (draw : Stream → α × Stream) (count : Nat) (s : Stream) :
    (drawMany draw count s).1.length = count := by
  induction count generalizing s with
  | zero => rfl
  | succ count ih => simp [drawMany, ih]

/-- A constraint: its coefficients, its relation, then its right-hand side. -/
def drawConstraint (p : ProgramShape) (s : Stream) : Constraint × Stream :=
  let (coefficients, s) := drawMany (drawSparse p) p.variableCount.toNat s
  let (relation, s) := s.drawRelation p
  let (rhs, s) := s.drawCoefficient 128
  (⟨coefficients, relation, rhs⟩, s)

/-- A program to be maximised: the objective first, then its constraints. -/
def drawProgram (p : ProgramShape) (s : Stream) : LinearProgram × Stream :=
  let (objective, s) := drawMany (drawCoefficient 0) p.variableCount.toNat s
  let (constraints, s) := drawMany (drawConstraint p) p.constraintCount.toNat s
  (⟨objective, true, constraints⟩, s)

end Stream

end ExactSimplex
