import ExactSimplex.CommandLine.Report
import ExactSimplex.Proofs.Draws
import ExactSimplex.Proofs.Phases
import ExactSimplex.Proofs.Reports
import ExactSimplex.Proofs.Tally

/-! Benchmarks.  A benchmark takes one turn after the other: it draws a program from where the
stream stands, builds and solves it, and records the outcome.  No turn fails.  What a turn does
depends on its number, the seed, the shape of the programs and the limit, so a benchmark with more
programs goes on where a smaller one ends, and its tally is the one of the outcomes in any order. -/

namespace ExactSimplex.Benchmark

variable {p : Parameters} {limit : Int} {f : Nat → Run}

/-! ### The turns -/

/-- The stream before turn `k`. -/
def streamAt (shape : ProgramShape) (seed : Int) (k : Nat) : Stream :=
  (Stream.ofSeed seed).standing (Stream.drawProgram shape) k

/-- The program of turn `k`. -/
def programAt (shape : ProgramShape) (seed : Int) (k : Nat) : LinearProgram :=
  (Stream.drawProgram shape (streamAt shape seed k)).1

/-- How far a benchmark has come. -/
structure Stage where
  stream : Stream
  tally : Tally := {}
  lines : List String := []

/-- The turn with the number `k`.  Its line shows the steps that the solver remembers. -/
def Stage.turn (digits : DigitLimit) (p : Parameters) (stage : Stage) (k : Nat) :
    Except Error Stage := do
  let draw := Stream.drawProgram p.shape stage.stream
  let lp ← LinearProgram.create draw.1.objective draw.1.maximize draw.1.constraints
  let answer := Solver.solve ⟨p.limit, 0⟩ lp
  let run ← answer.1
  let tally ← stage.tally.recordEntry digits (.outcome run.outcome)
  return ⟨draw.2, tally,
    stage.lines ++ [s!"Program {k + 1}: {run.outcome.status} after {answer.2.steps} steps"]⟩

/-- All turns of a benchmark. -/
def conduct (digits : DigitLimit) (p : Parameters) : Except Error Stage :=
  (List.range p.programCount.toNat).foldlM (Stage.turn digits p)
    { stream := streamAt p.shape p.seed 0 }

theorem wellShaped_programAt (shape : ProgramShape) (seed : Int) (k : Nat) :
    (programAt shape seed k).WellShaped :=
  Stream.wellShaped_drawProgram shape _

theorem programs_eq (shape : ProgramShape) (seed : Int) (count : Nat) :
    programs shape count (Stream.ofSeed seed) = (List.range count).map (programAt shape seed) := by
  rw [programs, Stream.drawMany_eq]
  rfl

/-- Every program can be solved within every limit. -/
theorem exists_runs (p : Parameters) (limit : Int) :
    ∃ f : Nat → Run, ∀ k, (programAt p.shape p.seed k).solve limit = .ok (f k) := by
  choose f hf using fun k =>
    LinearProgram.solve_spec (wellShaped_programAt p.shape p.seed k) limit
  exact ⟨f, fun k => (hf k).1⟩

theorem tally_concat (rs : List Run) (run : Run) :
    tally (rs ++ [run]) = (tally rs).record run.outcome :=
  List.foldl_append

theorem tally_eq (rs : List Run) : tally rs = Tally.recordAll {} (rs.map (·.outcome)) :=
  List.foldl_map.symm

section Limit

variable (hl : p.limit = .steps limit)
  (hf : ∀ k, (programAt p.shape p.seed k).solve limit = .ok (f k))
include hl hf

theorem turn_eq (digits : DigitLimit) (rs : List Run) :
    Stage.turn digits p ⟨streamAt p.shape p.seed rs.length, tally rs, progress rs⟩ rs.length =
      .ok ⟨streamAt p.shape p.seed (rs.length + 1), tally (rs ++ [f rs.length]),
        progress (rs ++ [f rs.length])⟩ := by
  have hcreate := LinearProgram.create_eq_ok (wellShaped_programAt p.shape p.seed rs.length)
  have hsolver := LinearProgram.solver_of_solve_eq_ok (hf rs.length) 0
  rw [programAt] at hcreate hsolver
  simp only [Stage.turn, hl, hcreate, Checked.ok_bind, hsolver, tally_concat, progress,
    List.mapIdx_concat]
  rw [streamAt, streamAt, Stream.standing_succ]
  rfl

/-- The first `n` turns. -/
theorem turns_eq (digits : DigitLimit) (n : Nat) :
    (List.range n).foldlM (Stage.turn digits p) { stream := streamAt p.shape p.seed 0 } =
      .ok ⟨streamAt p.shape p.seed n, tally ((List.range n).map f),
        progress ((List.range n).map f)⟩ := by
  induction n with
  | zero => rfl
  | succ n ih =>
    have hturn := turn_eq hl hf digits ((List.range n).map f)
    rw [List.length_map, List.length_range] at hturn
    rw [List.range_succ, List.foldlM_append, ih, Checked.ok_bind, List.foldlM_cons, hturn,
      List.map_append]
    rfl

theorem runs_eq (count : Int) :
    runs { p with programCount := count } = .ok ((List.range count.toNat).map f) := by
  have hsolve (k : Nat) : p.limit.solve (programAt p.shape p.seed k) = .ok (f k) := by
    rw [StepLimit.solve, hl, StepLimit.count, hf]
    rfl
  have hattempts : attempts { p with programCount := count } =
      ((List.range count.toNat).map f).map .ok := by
    rw [attempts, programs_eq, List.map_map, List.map_map]
    exact List.map_congr_left fun k _ => hsolve k
  rw [runs, hattempts, List.mapM_map]
  exact (Checked.mapM_eq_ok fun _ _ => rfl).trans (congrArg _ (List.map_id _))

/-- A benchmark goes on where one with fewer programs ends. -/
theorem exists_runs_append {count larger : Int} (hle : count ≤ larger) :
    ∃ more, runs { p with programCount := larger } =
      .ok ((List.range count.toNat).map f ++ more) := by
  obtain ⟨rest, hrest⟩ := Nat.exists_eq_add_of_le (Int.toNat_le_toNat hle)
  rw [runs_eq hl hf larger, hrest, List.range_add, List.map_append]
  exact ⟨_, rfl⟩

end Limit

/-! ### Whole benchmarks -/

/-- What a benchmark with the runs `rs` has done. -/
structure Conducted (p : Parameters) (limit : Int) (rs : List Run) : Prop where
  runs_eq : runs p = .ok rs
  /-- The turns one after the other record the outcomes and show the lines of progress. -/
  conduct_eq : ∀ digits, ∃ stream, conduct digits p = .ok ⟨stream, tally rs, progress rs⟩
  length_eq : (rs.length : Int) = p.programCount
  total_eq : ((tally rs).total : Int) = p.programCount
  counts : (tally rs).Counts (rs.map (·.outcome))
  /-- The programs depend on the shape, the seed and their numbers. -/
  programs_eq : programs p.shape p.programCount.toNat (Stream.ofSeed p.seed) =
    (List.range rs.length).map (programAt p.shape p.seed)
  /-- The outcome and the steps of a program depend on the limit besides. -/
  solve_eq : ∀ {k run}, rs[k]? = some run → (programAt p.shape p.seed k).solve limit = .ok run
  append : ∀ {larger}, p.programCount ≤ larger →
    ∃ more, runs { p with programCount := larger } = .ok (rs ++ more)
  checks_pass : p.isStandard = false → ∀ c ∈ (tally rs).checks p, c.passes = true
  /-- The command that asks for the benchmark ends with the exit code zero. -/
  status_off : p.isStandard = false → ∀ a : CommandLine.BenchArguments, a.parameters = .ok p →
    (a.report .off).status = .ok 0
  /-- A host that bounds digits does not print a longer sum; it prints every other one. -/
  status_eq : p.isStandard = false → ∀ (digits : DigitLimit) (a : CommandLine.BenchArguments),
    a.parameters = .ok p → (a.report digits).status =
      if Rational.Fits digits (tally rs).objectiveSum ∧ digits.Fits p.programCount then .ok 0
      else .error .tooManyDigits

theorem pos_of_check (hp : p.check = .ok p) : 0 < p.programCount := by
  by_contra hle
  rw [Parameters.check, if_pos (not_lt.mp hle)] at hp
  cases hp

theorem checks_pass_of_total {t : Tally} (ht : (t.total : Int) = p.programCount)
    (hs : p.isStandard = false) : ∀ c ∈ t.checks p, c.passes = true := by
  intro c hc
  rw [Tally.checks, hs] at hc
  obtain rfl := List.mem_singleton.mp hc
  simp [Check.passes, ht]

/-- The lines that show a tally are printed if the sum is. -/
theorem reports_tallyLines (digits : DigitLimit) (t : Tally) {more : List (Except Error String)}
    {es : List Error} (h : Reports (Printout.ofLines more).result es) :
    Reports (Printout.ofLines (CommandLine.tallyLines digits t ++ more)).result
      (digits.overlong (Rational.parts t.objectiveSum) ++ es) :=
  Printout.reports_ok_append
    ["\n=== Benchmark ===", s!"Optimal: {t.feasible}", s!"Infeasible: {t.infeasible}",
      s!"Unbounded: {t.unbounded}", s!"Timed out: {t.timedOut}"]
    (Printout.reports_cons ((Rational.reports_write digits t.objectiveSum).map _) h)

theorem reports_line_count (digits : DigitLimit) (name : String) (m n : Int) :
    Reports (Check.line digits ⟨name, .count m, .count n⟩) (digits.overlong [m, n]) :=
  digits.reports_pair m n _

/-- The command ends well unless a number that it prints is too long. -/
theorem status_of_total {a : CommandLine.BenchArguments} {rs : List Run} (digits : DigitLimit)
    (ha : a.parameters = .ok p) (hr : runs p = .ok rs) (hs : p.isStandard = false)
    (ht : ((tally rs).total : Int) = p.programCount) : (a.report digits).status =
      if Rational.Fits digits (tally rs).objectiveSum ∧ digits.Fits p.programCount then .ok 0
      else .error .tooManyDigits := by
  have hpass := List.all_eq_true.mpr (checks_pass_of_total ht hs)
  have hchecks : (tally rs).checks p =
      [⟨"programs run", .count p.programCount, .count (tally rs).total⟩] := by
    rw [Tally.checks, hs]
    rfl
  rw [hchecks] at hpass
  have hline := reports_line_count digits "programs run" p.programCount (tally rs).total
  have hlines := Printout.reports_ok_append (a.progressOf rs)
    (reports_tallyLines digits (tally rs) (Printout.reports_singleton hline))
  rw [← DigitLimit.overlong_append] at hlines
  have hstatus := hlines.map_const 0
  have hfits : (∀ n ∈ Rational.parts (tally rs).objectiveSum ++
      [p.programCount, ((tally rs).total : Int)], digits.Fits n) ↔
        Rational.Fits digits (tally rs).objectiveSum ∧ digits.Fits p.programCount := by
    rw [List.forall_mem_append, Rational.forall_parts_iff, ht]
    simp
  simp only [hfits] at hstatus
  rw [← hstatus]
  simp only [CommandLine.BenchArguments.report, ha, hr, hchecks, hpass, if_true,
    CommandLine.Report.ofLines, List.map_cons, List.map_nil, List.append_assoc]

/-- Three programs with five variables and four constraints. -/
def three : Parameters :=
  { programCount := 3, seed := 7, shape := { variableCount := 5, constraintCount := 4 } }

def threeArguments : CommandLine.BenchArguments where
  programCount := some 3
  seed := some 7
  variableCount := some 5
  constraintCount := some 4

end ExactSimplex.Benchmark
