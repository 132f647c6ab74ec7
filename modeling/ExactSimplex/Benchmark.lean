import ExactSimplex.Random.Programs
import ExactSimplex.Solver
import ExactSimplex.Value.Shown

/-! A benchmark: random programs from one stream, solved one after the other, with a count for each
outcome and the exact sum of the optimal values.  For the standard parameters the tally is checked
against known values, for all others only the number of programs is. -/

namespace ExactSimplex.Benchmark

/-- What a benchmark is run with. -/
structure Parameters where
  programCount : Int := 10
  seed : Int := 42
  limit : StepLimit := .standard
  shape : ProgramShape := {}

namespace Parameters

/-- Parameters are refused unless they ask for a program at least. -/
def check (p : Parameters) : Except Error Parameters :=
  if p.programCount ≤ 0 then .error .nonPositiveCount else .ok p

/-- The parameters for which the tally is known. -/
def standard : Parameters := {}

/-- Whether parameters are the standard ones. -/
def isStandard (p : Parameters) : Bool :=
  p.programCount = standard.programCount && p.seed = standard.seed && p.limit = standard.limit &&
    p.shape.isStandard

end Parameters

/-- The number of outcomes of each kind, and the sum of the optimal values. -/
structure Tally where
  feasible : Nat := 0
  infeasible : Nat := 0
  unbounded : Nat := 0
  timedOut : Nat := 0
  objectiveSum : Rat := 0
deriving DecidableEq, Repr

namespace Tally

/-- How many outcomes were recorded. -/
def total (t : Tally) : Nat := t.feasible + t.infeasible + t.unbounded + t.timedOut

/-- The tally with one more outcome. -/
def record (t : Tally) : Outcome → Tally
  | .optimal _ value =>
    { t with feasible := t.feasible + 1, objectiveSum := t.objectiveSum + value }
  | .infeasible => { t with infeasible := t.infeasible + 1 }
  | .unbounded => { t with unbounded := t.unbounded + 1 }
  | .timedOut => { t with timedOut := t.timedOut + 1 }

theorem total_record (t : Tally) (o : Outcome) : (t.record o).total = t.total + 1 := by
  cases o <;> simp only [record, total] <;> omega

end Tally

/-- What is handed over to be recorded: an outcome, or a value that is none. -/
inductive Entry where
  | outcome (o : Outcome)
  | other (v : Value)

/-- The refusal of a value that is no outcome, which shows it. -/
def refusal (digits : DigitLimit) (v : Value) : Error :=
  match v.shown digits with
  | .ok shown => .unknownOutcome shown
  | .error e => e

/-- The tally after an entry; what is no outcome is refused. -/
def Tally.recordEntry (digits : DigitLimit) (t : Tally) : Entry → Except Error Tally
  | .outcome o => .ok (t.record o)
  | .other v => .error (refusal digits v)

/-- The sum of the optimal values for the standard parameters. -/
def expectedSum : Rat :=
  mkRat
    2890528279780327546890920560296572053017582970462229169962737102270355639494297269989090972103025110388363
    2775065187046933750458072200920143470609500555385545496730279581456018896727786579265533127822441171840

/-- A number that is checked. -/
inductive Figure where
  | count (n : Int)
  | amount (q : Rat)
deriving DecidableEq, Repr

/-- The text of a number that is checked. -/
def Figure.write (digits : DigitLimit) : Figure → Except Error String
  | count n => digits.write n
  | amount q => Rational.write digits q

/-- A number beside the one that is expected. -/
structure Check where
  name : String
  expected : Figure
  actual : Figure
deriving DecidableEq, Repr

/-- Whether the number is the expected one. -/
def Check.passes (c : Check) : Bool := c.expected = c.actual

/-- The line that reports a check. -/
def Check.line (digits : DigitLimit) (c : Check) : Except Error String := do
  let mark := if c.passes then "ok" else "FAILED"
  let expected ← c.expected.write digits
  let actual ← c.actual.write digits
  return s!"[{mark}] {c.name}: expected {expected}, got {actual}"

/-- What is checked about a tally. -/
def Tally.checks (t : Tally) (p : Parameters) : List Check :=
  if p.isStandard then
    [⟨"real sum compared to expected sum", .amount expectedSum, .amount t.objectiveSum⟩,
      ⟨"expected feasible", .count 3, .count t.feasible⟩,
      ⟨"expected infeasible", .count 7, .count t.infeasible⟩,
      ⟨"expected unbounded", .count 0, .count t.unbounded⟩,
      ⟨"expected timed out", .count 0, .count t.timedOut⟩]
  else [⟨"programs run", .count p.programCount, .count t.total⟩]

/-- The first programs of a stream. -/
def programs (shape : ProgramShape) (count : Nat) (s : Stream) : List LinearProgram :=
  (Stream.drawMany (Stream.drawProgram shape) count s).1

/-- Every program of a benchmark solved. -/
def attempts (p : Parameters) : List (Except Error Run) :=
  (programs p.shape p.programCount.toNat (Stream.ofSeed p.seed)).map p.limit.solve

/-- The runs of a benchmark. -/
def runs (p : Parameters) : Except Error (List Run) := (attempts p).mapM id

/-- The runs before the first program that has none. -/
def runsBeforeFailure (p : Parameters) : List Run :=
  ((attempts p).takeWhile (·.isOk)).filterMap (·.toOption)

/-- The tally of runs. -/
def tally (runs : List Run) : Tally := runs.foldl (fun t run => t.record run.outcome) {}

/-- A line for each run as it ends. -/
def progress (runs : List Run) : List String :=
  runs.mapIdx fun k run => s!"Program {k + 1}: {run.outcome.status} after {run.steps} steps"

end ExactSimplex.Benchmark
