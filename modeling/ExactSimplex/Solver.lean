import ExactSimplex.Printing
import ExactSimplex.Tableau.Initial
import ExactSimplex.Tableau.Objective
import ExactSimplex.Tableau.Table

/-! The two phases of the simplex method.  The first drives the artificial variables to zero, and is
left out when there are none; the second starts where it ended and maximises the objective of the
program.  One limit of steps holds for both phases together.  A run reports the outcome, the steps,
and the tableaux at the boundaries of the phases; a solver can show these while it runs. -/

namespace ExactSimplex

/-- What solving a program comes to. -/
inductive Outcome where
  /-- A best point and the value of the objective there. -/
  | optimal (solution : List Rat) (value : Rat)
  | infeasible
  | unbounded
  | timedOut
deriving DecidableEq, Repr

/-- The word for an outcome. -/
def Outcome.status : Outcome → String
  | optimal .. => "optimal"
  | infeasible => "infeasible"
  | unbounded => "unbounded"
  | timedOut => "timed_out"

/-- A tableau that a run shows, under its title. -/
structure Snapshot where
  title : String
  tableau : Tableau
deriving DecidableEq, Repr

/-- The block that a snapshot is shown as. -/
def Snapshot.block (digits : DigitLimit) (s : Snapshot) : Except Error String :=
  s.tableau.format digits s.title

/-- What a run reports. -/
structure Run where
  outcome : Outcome
  steps : Nat
  snapshots : List Snapshot
deriving DecidableEq, Repr

/-- The blocks of a run, one after the other. -/
def Run.trace (digits : DigitLimit) (r : Run) : Printout :=
  .ofLines (r.snapshots.map (·.block digits))

/-- The run as far as it was shown when a limit that is no number ended it: the tableau after a
pivot is not shown any more. -/
def Run.interrupted (r : Run) : Run :=
  match r.snapshots.reverse with
  | last :: before :: earlier =>
    if last.tableau.basis = before.tableau.basis then r
    else { r with snapshots := (before :: earlier).reverse }
  | _ => r

namespace LinearProgram

/-- The outcome of a phase that did not reach an optimum. -/
def failure (limit : Int) (t : Tableau) : Outcome :=
  if limit ≤ t.steps then .timedOut else .unbounded

/-- The second phase, from a tableau whose basic point is feasible. -/
def secondPhase (lp : LinearProgram) (limit : Int) (t : Tableau) (shown : List Snapshot) :
    Except Error Run := do
  let start ← t.withObjective lp
  let (finished, last) ← start.optimize limit
  let outcome :=
    if finished then .optimal (last.point lp) (last.objectiveValue lp) else failure limit last
  return ⟨outcome, last.steps, shown ++ [⟨"Before Phase II", start⟩, ⟨"After Phase II", last⟩]⟩

/-- The whole method: the first phase unless there is no artificial variable, then the second. -/
def solve (lp : LinearProgram) (limit : Int) : Except Error Run := do
  let start ← lp.initialTableau
  let shown := [⟨"Initial Tableau", start⟩]
  if lp.artificialCount = 0 then lp.secondPhase limit start shown
  else
    let (finished, last) ← start.optimize limit
    let shown := shown ++ [⟨"After Phase I", last⟩]
    if !finished then return ⟨failure limit last, last.steps, shown⟩
    else if !last.isFeasible then return ⟨.infeasible, last.steps, shown⟩
    else lp.secondPhase limit (last.dropColumns lp.artificialCount) shown

end LinearProgram

/-- A limit of steps as a caller states it. -/
inductive StepLimit where
  | steps (count : Int)
  /-- A limit with which no number of steps can be compared. -/
  | incomparable
deriving DecidableEq, Repr

namespace StepLimit

/-- The number behind a limit.  Without one, a run goes on until the limit would be looked at: until
its first pivot, as if only one step were allowed. -/
def count : StepLimit → Int
  | steps n => n
  | incomparable => 1

/-- The run, or an error if it had to look at a limit that is no number. -/
def judge (limit : StepLimit) (run : Run) : Except Error Run :=
  match limit, run.outcome with
  | incomparable, .timedOut => .error .unsupported
  | _, _ => .ok run

/-- The limit that a value states. -/
def ofValue (v : Value) : StepLimit :=
  match v.toInt? with
  | some n => steps n
  | none => incomparable

/-- The limit that holds when none is stated. -/
def standard : StepLimit := steps 200

end StepLimit

/-- Optimises a tableau within a limit, giving whether no column enters in the end and the tableau
then.  A limit that is no number is looked at after the first pivot. -/
def Tableau.optimizeWithin (t : Tableau) : StepLimit → Except Error Bool × Tableau
  | .steps n =>
    match t.optimize n with
    | .ok (finished, last) => (.ok finished, last)
    | .error e => (.error e, t)
  | .incomparable =>
    match t.counted.step with
    | .ok .optimal => (.ok true, t.counted)
    | .ok .unbounded => (.ok false, t.counted)
    | .ok (.pivoted next) => (.error .unsupported, next)
    | .error e => (.error e, t.counted)

/-- Solves a program within a limit as a caller states it. -/
def StepLimit.solve (limit : StepLimit) (lp : LinearProgram) : Except Error Run :=
  (lp.solve limit.count).bind limit.judge

/-- A solver that is used again and again; it remembers the steps of its last run. -/
structure Solver where
  limit : StepLimit
  steps : Nat := 0

/-- Solves one more program.  The steps stay as they were if the program has no tableau. -/
def Solver.solve (s : Solver) (lp : LinearProgram) : Except Error Run × Solver :=
  match lp.solve s.limit.count with
  | .ok run => (s.limit.judge run, { s with steps := run.steps })
  | .error e => (.error e, s)

/-- What a solver answers: the text that it printed, the run or an error, and the solver then. -/
structure Solver.Answer where
  output : String
  result : Except Error Run
  solver : Solver

/-- The part of a run that is shown: all of it, or what comes before a limit that is no number is
looked at. -/
def StepLimit.shownOf (limit : StepLimit) (run : Run) : Run :=
  match limit.judge run with
  | .ok run => run
  | .error _ => run.interrupted

/-- The steps that were counted when the first block that cannot be written came, or at the end. -/
def Run.stepsShown (digits : DigitLimit) (r : Run) : Nat :=
  match r.snapshots.find? fun s => !(s.block digits).isOk with
  | some s => s.tableau.steps
  | none => r.steps

/-- The answer of a solver that shows the run.  A block that cannot be written ends the run, with
the steps counted up to there. -/
def Solver.display (digits : DigitLimit) (s : Solver) (lp : LinearProgram) (run : Run) :
    Solver.Answer :=
  let shown := s.limit.shownOf run
  let printout := shown.trace digits
  match printout.result with
  | .ok () => ⟨printout.text, (s.solve lp).1, (s.solve lp).2⟩
  | .error e => ⟨printout.text, .error e, { s with steps := shown.stepsShown digits }⟩

/-- Solves one more program and shows the blocks of the run if `debug` asks for it. -/
def Solver.answer (digits : DigitLimit) (debug : Bool) (s : Solver) (lp : LinearProgram) :
    Solver.Answer :=
  match lp.solve s.limit.count, debug with
  | .ok run, true => s.display digits lp run
  | _, _ => ⟨"", (s.solve lp).1, (s.solve lp).2⟩

end ExactSimplex
