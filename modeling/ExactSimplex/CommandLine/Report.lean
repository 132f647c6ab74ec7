import ExactSimplex.CommandLine.Request
import ExactSimplex.Json
import ExactSimplex.Model.Record
import ExactSimplex.Region.Figure

/-! Carrying out what a command line asks for.  The result is what is printed and the exit code, or
the error that ended the command after what had been printed. -/

namespace ExactSimplex.CommandLine

/-- What a command prints, and its exit code or the error that ended it. -/
structure Report where
  output : String
  status : Except Error Nat

/-- Lines that are printed, and the exit code if all of them are. -/
def Report.ofLines (lines : List (Except Error String)) (code : Nat) : Report :=
  let printout := Printout.ofLines lines
  ⟨printout.text, printout.result.map fun _ => code⟩

/-- Lines that are printed before an error ends the command. -/
def Report.failed (lines : List String) (e : Error) : Report :=
  ⟨(Printout.ofLines (lines.map .ok)).text, .error e⟩

/-- The exit code of a command line that breaks the rules. -/
def misuseCode : Nat := 2

/-- The text that explains the commands. -/
def usage : String :=
  "\n".intercalate
    ["usage: exact-simplex solve MODEL [--sense max|min] [--max-steps N] [--debug] [--graph]",
      "       exact-simplex bench [--program-count N] [--seed N] [--max-steps N] [--variables N]",
      "                           [--constraints N] [-v]", ""]

/-- The report about a command line that asks for nothing. -/
def Stop.report : Stop → Report
  | help => ⟨usage, .ok 0⟩
  | misuse => ⟨"", .ok misuseCode⟩

/-- The line with the value of an optimal outcome, and the one with its point. -/
def optimumLines (digits : DigitLimit) (solution : List Rat) (value : Rat) :
    List (Except Error String) :=
  [(Rational.write digits value).map fun s => "Optimal value: " ++ s,
    (solution.mapM (Rational.write digits)).map fun texts => "Solution x: " ++ bracketed texts]

/-- The lines that tell what a run came to. -/
def runLines (digits : DigitLimit) (run : Run) : List (Except Error String) :=
  [.ok "\n=== Result ===", .ok ("Status: " ++ run.outcome.status)] ++
    (match run.outcome with
    | .optimal solution value => optimumLines digits solution value
    | _ => []) ++
    [.ok s!"Steps: {run.steps}"]

/-- The program of a document, with the sense that the arguments ask for. -/
def SolveArguments.program (digits : DigitLimit) (a : SolveArguments) (model : Value) :
    Except Error LinearProgram := do
  match a.maximize with
  | some sense => LinearProgram.ofValue digits (← model.set "maximize" (.bool sense))
  | none => LinearProgram.ofValue digits model

/-- What is said about a picture: only that there is none, or why it cannot be drawn. -/
def graphLines (digits : DigitLimit) (lp : LinearProgram) (run : Run) :
    List (Except Error String) :=
  match Region.draw digits lp (some run.outcome) with
  | .ok (some _) => []
  | .ok none => [.ok "Graph only supports 2 variables with a non-empty feasible region."]
  | .error e => [.error e]

/-- The lines behind a run. -/
def SolveArguments.lines (digits : DigitLimit) (a : SolveArguments) (lp : LinearProgram)
    (run : Run) : List (Except Error String) :=
  runLines digits run ++ if a.graph then graphLines digits lp run else []

/-- Solves the program of a document.  What the solver prints comes before the lines about the
run. -/
def SolveArguments.reportModel (digits : DigitLimit) (a : SolveArguments) (model : Value) :
    Report :=
  match a.program digits model with
  | .error e => .failed [] e
  | .ok lp =>
    let answer := Solver.answer digits a.debug { limit := a.limit } lp
    match answer.result with
    | .error e => ⟨answer.output, .error e⟩
    | .ok run =>
      let rest := Report.ofLines (a.lines digits lp run) 0
      ⟨answer.output ++ rest.output, rest.status⟩

/-- Solves the model in the file at a path; a file that cannot be read has no text, and a name with
a null character in it is none. -/
def SolveArguments.report (digits : DigitLimit) (a : SolveArguments) (path : String)
    (document : Option String) : Report :=
  if path.contains '\x00' then .failed [] .impossiblePath
  else
    match document.map fun text => Json.parse digits text with
    | some (.ok model) => a.reportModel digits model
    | some (.error .malformedJson) | none => ⟨"", .ok misuseCode⟩
    | some (.error e) => .failed [] e

/-- The lines that show a tally. -/
def tallyLines (digits : DigitLimit) (t : Benchmark.Tally) : List (Except Error String) :=
  [.ok "\n=== Benchmark ===", .ok s!"Optimal: {t.feasible}", .ok s!"Infeasible: {t.infeasible}",
    .ok s!"Unbounded: {t.unbounded}", .ok s!"Timed out: {t.timedOut}",
    (Rational.write digits t.objectiveSum).map fun s => "Objective sum: " ++ s]

/-- A number that has to be there. -/
def required : Option Int → Except Error Int
  | some n => .ok n
  | none => .error .unsupported

/-- The parameters of a benchmark; that there are programs is looked at first. -/
def BenchArguments.parameters (a : BenchArguments) : Except Error Benchmark.Parameters := do
  let p ← Benchmark.Parameters.check
    { programCount := ← required a.programCount, limit := a.limit }
  return { p with
    seed := ← required a.seed
    shape := { ProgramShape.standard with
      variableCount := ← required a.variableCount
      constraintCount := ← required a.constraintCount } }

/-- The lines of progress, if the arguments ask for them. -/
def BenchArguments.progressOf (a : BenchArguments) (runs : List Run) : List String :=
  if a.verbose then Benchmark.progress runs else []

/-- Runs a benchmark; the exit code is one if a check fails. -/
def BenchArguments.report (digits : DigitLimit) (a : BenchArguments) : Report :=
  match a.parameters with
  | .error e => .failed [] e
  | .ok p =>
    match Benchmark.runs p with
    | .error e => .failed (a.progressOf (Benchmark.runsBeforeFailure p)) e
    | .ok runs =>
      let tally := Benchmark.tally runs
      let checks := tally.checks p
      .ofLines
        ((a.progressOf runs).map .ok ++ tallyLines digits tally ++ checks.map (·.line digits))
        (if checks.all (·.passes) then 0 else 1)

/-- The path that a request names. -/
def pathOf : Except Stop Request → Option String
  | .ok (.solve path _) => some path
  | _ => none

/-- The report about a command line, given the text of the file that it names. -/
def report (digits : DigitLimit) (request : Except Stop Request) (document : Option String) :
    Report :=
  match request with
  | .error stop => stop.report
  | .ok (.solve path a) => a.report digits path document
  | .ok (.bench a) => a.report digits

end ExactSimplex.CommandLine
