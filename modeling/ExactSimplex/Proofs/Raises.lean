import ExactSimplex.Proofs.GridPhases
import ExactSimplex.Proofs.GridStart
import ExactSimplex.Proofs.Table

/-! When solving fails.  The whole method under checks, with what it shows on the way, gives the
outcome, the steps and the text that the method gives without them; so a program whose rows all have
the right length is solved, and no other one is: its first row of the wrong length is named.  Only a
host that bounds digits may stop a run that shows its tableaux, at one with a longer number. -/

namespace ExactSimplex

open Checked

namespace Grid

/-- The greatest of several numbers; there must be one. -/
def largest (ns : List Nat) : Except Error Nat :=
  match ns.max? with
  | some n => .ok n
  | none => .error .emptyCollection

/-- The name of a column, if there is one in that place. -/
def columnName (g : Grid) (j : Nat) : Except Error String :=
  if j < g.names.length then item g.names j else .ok s!"#{j}"

/-- The table as text, with a line above the row that stands last. -/
def format (digits : DigitLimit) (g : Grid) (title : String) : Except Error String := do
  let headers := g.names ++ ["RHS"]
  let cells ← g.table.mapM fun row => row.mapM (Rational.write digits)
  let width := max 6 ((← largest ((headers ++ cells.flatten).map String.length)) + 2)
  let basis ← g.basis.mapM g.columnName
  let line (cells : List String) := " ".intercalate (cells.map (alignRight width))
  let rule := String.ofList (List.replicate (headers.length * (width + 1)) '-')
  let rows := cells.zipIdx.flatMap fun p =>
    if p.2 = g.table.length - 1 then [rule, line p.1] else [line p.1]
  return "\n".intercalate
    (["\n=== " ++ title ++ " ===", "Basis: " ++ bracketed basis, line headers, rule] ++ rows)

/-- What is printed of a table. -/
def print (digits : DigitLimit) (debug : Bool) (g : Grid) (title : String) : Except Error String :=
  if debug then do return (← g.format digits title) ++ "\n" else .ok ""

/-- What a run that did not finish ends in. -/
def failure (limit : Int) (steps : Nat) : Outcome :=
  if limit ≤ steps then .timedOut else .unbounded

/-- The outcome, the steps and what is printed. -/
def secondPhase (digits : DigitLimit) (debug : Bool) (g : Grid) (lp : LinearProgram) (limit : Int)
    (steps : Nat) (shown : String) : Except Error (Outcome × Nat × String) := do
  let g ← g.resetObjective lp
  let before ← g.print digits debug "Before Phase II"
  let (finished, steps, g) ← g.optimize limit steps
  let after ← g.print digits debug "After Phase II"
  let shown := shown ++ before ++ after
  if finished then
    let z ← g.value
    let point ← g.point lp
    return (.optimal point (if lp.maximize then z else -z), steps, shown)
  else return (failure limit steps, steps, shown)

/-- The first phase, and the second if it follows. -/
def firstPhase (digits : DigitLimit) (debug : Bool) (g : Grid) (lp : LinearProgram) (limit : Int)
    (artificials : Nat) (shown : String) : Except Error (Outcome × Nat × String) := do
  let (finished, steps, g) ← g.optimize limit 0
  let after ← g.print digits debug "After Phase I"
  let shown := shown ++ after
  if finished then
    if (← g.value) = 0 then
      (← g.dropColumns artificials).secondPhase digits debug lp limit steps shown
    else return (.infeasible, steps, shown)
  else return (failure limit steps, steps, shown)

/-- The whole method. -/
def solve (digits : DigitLimit) (debug : Bool) (lp : LinearProgram) (limit : Int) :
    Except Error (Outcome × Nat × String) := do
  let (g, artificials) ← start lp
  let initial ← g.print digits debug "Initial Tableau"
  if 0 < artificials then g.firstPhase digits debug lp limit artificials initial
  else g.secondPhase digits debug lp limit 0 initial

end Grid

/-! ### What is shown -/

namespace Printout

/-- The text, if all of it was printed. -/
def whole (p : Printout) : Except Error String := p.result.map fun _ => p.text

theorem whole_ofLines_cons (s : String) (lines : List (Except Error String)) :
    (ofLines (.ok s :: lines)).whole = (ofLines lines).whole.map fun rest => s ++ "\n" ++ rest := by
  rw [ofLines, whole, whole]
  cases (ofLines lines).result <;> rfl

theorem whole_singleton (line : Except Error String) :
    (ofLines [line]).whole = line.map (· ++ "\n") := by
  cases line with
  | ok s => exact congrArg Except.ok (String.append_empty)
  | error e => rfl

theorem whole_append (lines more : List (Except Error String)) :
    (ofLines (lines ++ more)).whole = do
      let front ← (ofLines lines).whole
      return front ++ (← (ofLines more).whole) := by
  induction lines with
  | nil =>
    show (ofLines more).whole = _
    cases (ofLines more).whole with
    | ok s => exact congrArg Except.ok String.empty_append.symm
    | error e => rfl
  | cons line lines ih =>
    cases line with
    | error e => rfl
    | ok s =>
      rw [List.cons_append, whole_ofLines_cons, ih, whole_ofLines_cons]
      cases (ofLines lines).whole with
      | error e => rfl
      | ok front =>
        cases (ofLines more).whole with
        | error e => rfl
        | ok back => exact congrArg Except.ok (String.append_assoc ..).symm

end Printout

namespace Run

/-- Every tableau that the run shows can be written. -/
def Showable (digits : DigitLimit) (run : Run) : Prop :=
  ∀ s ∈ run.snapshots, s.tableau.Writable digits

instance (digits : DigitLimit) (run : Run) : Decidable (run.Showable digits) :=
  inferInstanceAs (Decidable (∀ s ∈ run.snapshots, _))

theorem showable_off (run : Run) : run.Showable .off := fun s _ => s.tableau.writable_off

/-- The blocks of tableaux that are shown, one after the other. -/
def displayed (shown : List Snapshot) : String :=
  String.join (shown.map fun s => s.tableau.display s.title ++ "\n")

/-- The tableaux that are shown before the first that cannot be written. -/
def writtenBlocks (digits : DigitLimit) (run : Run) : List Snapshot :=
  run.snapshots.takeWhile fun s => s.tableau.Writable digits

theorem ofLines_blocks (digits : DigitLimit) (shown : List Snapshot) :
    Printout.ofLines (shown.map (·.block digits)) =
      ⟨displayed (shown.takeWhile fun s => s.tableau.Writable digits),
        if ∀ s ∈ shown, s.tableau.Writable digits then .ok () else .error .tooManyDigits⟩ := by
  induction shown with
  | nil => rfl
  | cons s shown ih =>
    rw [List.map_cons, Snapshot.block, Tableau.format_eq]
    by_cases h : s.tableau.Writable digits
    · rw [if_pos h, Printout.ofLines, ih]
      simp only [displayed, List.takeWhile_cons, h, decide_true, if_true, List.map_cons,
        String.join_cons, List.forall_mem_cons, true_and]
    · rw [if_neg h, if_neg fun hall => h (hall s List.mem_cons_self), List.takeWhile_cons,
        decide_eq_false h]
      rfl

/-- What is printed of a run, and whether that is all of it. -/
theorem trace_eq (digits : DigitLimit) (run : Run) : run.trace digits =
    ⟨displayed (run.writtenBlocks digits),
      if run.Showable digits then .ok () else .error .tooManyDigits⟩ :=
  ofLines_blocks digits run.snapshots

theorem Showable.trace_eq {digits : DigitLimit} {run : Run} (h : run.Showable digits) :
    run.trace digits = ⟨displayed run.snapshots, .ok ()⟩ := by
  have hall : run.writtenBlocks digits = run.snapshots :=
    List.takeWhile_eq_self_iff.mpr fun s hs => decide_eq_true (h s hs)
  rw [Run.trace_eq, hall, if_pos h]

end Run

theorem largest_eq {ns : List Nat} (h : ns ≠ []) : Grid.largest ns = .ok (ns.foldl max 0) := by
  match ns with
  | [] => exact absurd rfl h
  | n :: ns =>
    rw [Grid.largest, List.max?_cons', List.foldl_cons, Nat.zero_max]

/-- A line above the last row. -/
theorem flatMap_rule {α : Type} (line : α → String) (rule : String) (xs : List α) (x : α) :
    ((xs ++ [x]).zipIdx.flatMap fun p =>
      if p.2 = xs.length then [rule, line p.1] else [line p.1]) =
        xs.map line ++ [rule, line x] := by
  have hxs : (xs.zipIdx.flatMap fun p =>
      if p.2 = xs.length then [rule, line p.1] else [line p.1]) = xs.map line := by
    conv_rhs => rw [← List.zipIdx_map_fst 0 xs, List.map_map]
    rw [← List.flatMap_pure_eq_map]
    refine List.flatMap_congr fun p hp => ?_
    have hlt := List.snd_lt_of_mem_zipIdx hp
    rw [if_neg (by omega)]
    rfl
  rw [List.zipIdx_append, List.flatMap_append, hxs, List.zipIdx_singleton, List.flatMap_singleton,
    Nat.zero_add, if_pos rfl]

namespace Tableau

variable {t : Tableau} {lp : LinearProgram} {limit : Int} {debug : Bool}

theorem columnName_grid (t : Tableau) (j : Nat) : t.grid.columnName j = .ok (t.columnName j) := by
  rw [Grid.columnName, columnName, List.getD]
  by_cases hj : j < t.names.length
  · rw [if_pos (show j < t.grid.names.length from hj), List.getElem?_eq_getElem hj]
    exact item_eq_ok (List.getElem?_eq_getElem hj)
  · rw [if_neg (show ¬j < t.grid.names.length from hj), List.getElem?_eq_none (not_lt.mp hj)]
    rfl

/-- The cells that are made are looked through for the width, and set out line by line. -/
theorem format_grid (digits : DigitLimit) (t : Tableau) (title : String) :
    t.grid.format digits title = t.format digits title := by
  have hcells : (t.grid.table.mapM fun row => row.mapM (Rational.write digits)) =
      t.cells digits := by
    rw [grid, List.mapM_map]
    rfl
  have hwidth : Grid.largest ((t.headers ++ t.texts.flatten).map String.length) =
      .ok (((t.headers ++ t.texts.flatten).map String.length).foldl max 0) :=
    largest_eq (by simp [headers])
  have hbasis : t.basis.mapM t.grid.columnName = .ok (t.basis.map t.columnName) :=
    mapM_eq_ok fun j _ => t.columnName_grid j
  have hrows (line : List String → String) (rule : String) : (t.texts.zipIdx.flatMap fun p =>
      if p.2 = t.grid.table.length - 1 then [rule, line p.1] else [line p.1]) =
        t.texts.dropLast.map line ++ rule :: (t.texts.getLast?.map line).toList := by
    have hlength : t.grid.table.length - 1 =
        (t.rows.map fun r => r.entries.map Rational.text).length := by simp [grid]
    rw [hlength, texts, List.map_append, List.map_singleton, flatMap_rule, List.dropLast_concat,
      List.getLast?_concat]
    rfl
  rw [Grid.format, Tableau.format, hcells]
  by_cases h : t.Writable digits
  · rw [h.cells_eq, ok_bind, ok_bind]
    show (Grid.largest ((t.headers ++ t.texts.flatten).map String.length) >>= _) = _
    rw [hwidth, ok_bind]
    show (t.basis.mapM t.grid.columnName >>= _) = _
    rw [hbasis, ok_bind]
    let line (cells : List String) := " ".intercalate (cells.map (alignRight t.displayWidth))
    let rule := String.ofList (List.replicate (t.headers.length * (t.displayWidth + 1)) '-')
    exact congrArg (fun rows => Except.ok ("\n".intercalate
      (["\n=== " ++ title ++ " ===", "Basis: " ++ bracketed (t.basis.map t.columnName),
        line t.headers, rule] ++ rows))) (hrows line rule)
  · rw [cells_of_not_writable h]
    rfl

/-- What is printed of the tableaux shown, if all of them are. -/
def printed (digits : DigitLimit) (debug : Bool) (shown : List Snapshot) : Except Error String :=
  if debug then (Printout.ofLines (shown.map (·.block digits))).whole else .ok ""

theorem printed_append (digits : DigitLimit) (debug : Bool) (shown more : List Snapshot) :
    printed digits debug (shown ++ more) = do
      let front ← printed digits debug shown
      return front ++ (← printed digits debug more) := by
  cases debug with
  | false => rfl
  | true =>
    show (Printout.ofLines ((shown ++ more).map (·.block digits))).whole = _
    rw [List.map_append, Printout.whole_append]
    rfl

theorem print_grid (digits : DigitLimit) (debug : Bool) (t : Tableau) (title : String) :
    t.grid.print digits debug title = printed digits debug [⟨title, t⟩] := by
  cases debug with
  | false => rfl
  | true =>
    show _ = (Printout.ofLines [t.format digits title]).whole
    rw [Printout.whole_singleton, ← t.format_grid digits title]
    rfl

/-! ### The phases -/

/-- The loop keeps the shape of a tableau and ends. -/
theorem Rectangular.exists_optimize (h : t.Rectangular) (limit : Int) : ∃ finished last,
    t.optimize limit = .ok (finished, last) ∧ last.Rectangular := by
  obtain ⟨finished, last, hrun, hlast, -⟩ := optimize_spec (P := Rectangular)
    (fun t ht => ⟨ht.length_row, ht.length_basis, ht.length_names⟩)
    (fun t i j ht hj hi => by
      obtain ⟨r, hl⟩ := leaving_spec hi
      exact ht.eliminate hl.row) limit h
  exact ⟨finished, last, hrun, hlast⟩

theorem Rectangular.reset (h : t.Rectangular) (hn : lp.numVars ≤ t.width) :
    (t.reset lp).Rectangular where
  length_row r hr := (h.length_row r hr).trans (width_reset h hn).symm
  length_basis := h.length_basis
  length_names := h.length_names.trans (width_reset h hn).symm

/-- What a run reports: the outcome, the steps and the text printed. -/
def report (digits : DigitLimit) (debug : Bool) (run : Run) :
    Except Error (Outcome × Nat × String) :=
  (printed digits debug run.snapshots).map fun text => (run.outcome, run.steps, text)

theorem Rectangular.secondPhase_grid (h : t.Rectangular) (hn : lp.numVars ≤ t.width)
    (digits : DigitLimit) (debug : Bool) (limit : Int) (shown : List Snapshot) :
    (printed digits debug shown >>= t.grid.secondPhase digits debug lp limit t.steps) =
      (lp.secondPhase limit t shown >>= report digits debug) := by
  obtain ⟨finished, last, hrun, hlast⟩ := (h.reset hn).exists_optimize limit
  have hgrid := (h.reset hn).optimize_grid limit
  rw [hrun] at hgrid
  have hsplit : printed digits debug
      (shown ++ [⟨"Before Phase II", t.reset lp⟩, ⟨"After Phase II", last⟩]) = do
        let front ← printed digits debug (shown ++ [⟨"Before Phase II", t.reset lp⟩])
        return front ++ (← printed digits debug [⟨"After Phase II", last⟩]) := by
    rw [← printed_append, List.append_assoc]
    rfl
  rw [LinearProgram.secondPhase, withObjective_eq hn, ok_bind, hrun, ok_bind]
  show _ = (printed digits debug _).map _
  rw [hsplit, printed_append]
  cases printed digits debug shown with
  | error e => rfl
  | ok text =>
    rw [ok_bind, ok_bind, Grid.secondPhase, h.resetObjective_grid hn, ok_bind, print_grid]
    cases printed digits debug [⟨"Before Phase II", t.reset lp⟩] with
    | error e => rfl
    | ok before =>
      rw [ok_bind, ok_bind]
      show (Grid.optimize limit (t.reset lp).steps (t.reset lp).grid >>= _) = _
      rw [hgrid]
      show ((last.grid.print digits debug "After Phase II") >>= _) = _
      rw [print_grid]
      cases printed digits debug [⟨"After Phase II", last⟩] with
      | error e => rfl
      | ok after =>
        cases finished with
        | false => rfl
        | true =>
          show (last.grid.value >>= fun z => last.grid.point lp >>= _) = _
          rw [value_grid, ok_bind, hlast.point_grid, ok_bind]
          rfl

end Tableau

namespace LinearProgram

variable {lp : LinearProgram} {limit : Int} {debug : Bool}

theorem firstPhase_grid (hw : lp.WellShaped) (hcount : lp.artificialCount ≠ 0)
    (digits : DigitLimit) (debug : Bool) (limit : Int) :
    (Tableau.printed digits debug [⟨"Initial Tableau", lp.start⟩] >>=
      lp.start.grid.firstPhase digits debug lp limit lp.artificialCount) =
        (lp.solve limit >>= Tableau.report digits debug) := by
  obtain ⟨finished, last, hrun, hlast, -⟩ := Tableau.firstPhase_spec hw limit
  have hrect := (Tableau.Represents.start hw).toRectangular
  have hgrid := hrect.optimize_grid limit
  rw [hrun] at hgrid
  have hle := hlast.firstArtificial_le hw
  have hcut := hlast.dropColumns_eq hw
  have hwidth : lp.numVars ≤ (last.dropColumns lp.artificialCount).width := by
    rw [hcut, Tableau.width_truncate hle]
    exact Nat.le_add_right _ _
  have hcutrect : (last.dropColumns lp.artificialCount).Rectangular :=
    hcut ▸ hlast.toRectangular.truncate hle
  -- what is reported, with the blocks of the first phase apart
  have hreport : (lp.solve limit >>= Tableau.report digits debug) =
      Tableau.printed digits debug (lp.afterFirst last) >>= fun shown =>
        if finished then
          if last.value = 0 then
            (last.dropColumns lp.artificialCount).grid.secondPhase digits debug lp limit last.steps
              shown
          else .ok (.infeasible, last.steps, shown)
        else .ok (failure limit last, last.steps, shown) := by
    rw [solve_of_count_ne_zero hw hcount hrun]
    cases finished with
    | false => rfl
    | true =>
      by_cases hzero : last.value = 0
      · have hfeasible : last.isFeasible = true := decide_eq_true hzero
        rw [hfeasible]
        simp only [hzero, if_true]
        exact (hcutrect.secondPhase_grid hwidth digits debug limit _).symm
      · have hinfeasible : last.isFeasible = false := decide_eq_false hzero
        rw [hinfeasible]
        simp only [hzero, if_true, if_false]
        rfl
  have hsplit : Tableau.printed digits debug (lp.afterFirst last) = _ :=
    Tableau.printed_append digits debug [⟨"Initial Tableau", lp.start⟩] [⟨"After Phase I", last⟩]
  rw [hreport, hsplit]
  cases Tableau.printed digits debug [⟨"Initial Tableau", lp.start⟩] with
  | error e => rfl
  | ok initial =>
    show (Grid.optimize limit lp.start.steps lp.start.grid >>= _) = _
    rw [hgrid]
    show (last.grid.print digits debug "After Phase I" >>= _) = _
    rw [Tableau.print_grid]
    cases Tableau.printed digits debug [⟨"After Phase I", last⟩] with
    | error e => rfl
    | ok after =>
      cases finished with
      | false => rfl
      | true =>
        show (last.grid.value >>= fun z => if z = 0 then _ else _) = _
        rw [Tableau.value_grid, ok_bind, hlast.toRectangular.dropColumns_grid]
        rfl

/-- The method under checks reports what the method reports, on every program. -/
theorem solve_grid (digits : DigitLimit) (debug : Bool) (lp : LinearProgram) (limit : Int) :
    Grid.solve digits debug lp limit = lp.solve limit >>= Tableau.report digits debug := by
  rw [Grid.solve, start_grid]
  by_cases hw : lp.WellShaped
  · have hstart := Tableau.Represents.start hw
    rw [initialTableau_eq hw]
    show (lp.start.grid.print digits debug "Initial Tableau" >>= fun initial =>
      if 0 < lp.artificialCount then _ else _) = _
    rw [Tableau.print_grid]
    by_cases hcount : lp.artificialCount = 0
    · simp only [hcount, lt_irrefl, if_false]
      rw [solve_of_count_eq_zero hw hcount]
      exact hstart.toRectangular.secondPhase_grid (hstart.numVars_le hw) digits debug limit _
    · simp only [Nat.pos_of_ne_zero hcount, if_true]
      exact firstPhase_grid hw hcount digits debug limit
  · cases hstart : lp.initialTableau with
    | error e =>
      rw [solve, hstart]
      rfl
    | ok start => exact absurd (wellShaped_of_initialTableau_eq_ok hstart) hw

/-- Constraint `i` is the first whose coefficients do not match the objective. -/
structure FirstMisfit (lp : LinearProgram) (i : Nat) (c : Constraint) : Prop where
  constraint : lp.constraints[i]? = some c
  length_ne : c.coefficients.length ≠ lp.numVars
  before : ∀ k < i, ∀ d, lp.constraints[k]? = some d → d.coefficients.length = lp.numVars

/-- The wording of the error, with the number of the constraint counted from one. -/
def misfitMessage (row found expected : Nat) : String :=
  s!"constraint {row} has {found} coefficients, objective has {expected}"

theorem checkLengths_eq_error {n : Nat} {cs : List Constraint} {e : Error}
    (h : Tableau.checkLengths n cs = .error e) : ∃ i c, cs[i]? = some c ∧
      c.coefficients.length ≠ n ∧
      (∀ k < i, ∀ d, cs[k]? = some d → d.coefficients.length = n) ∧
      e = .rowLengthAt (i + 1) c.coefficients.length n := by
  rw [Tableau.checkLengths] at h
  cases hfind : cs.zipIdx.find? fun p => p.1.coefficients.length ≠ n with
  | none =>
    rw [hfind] at h
    cases h
  | some p =>
    rw [hfind] at h
    cases h
    obtain ⟨hp, i, hi, rfl, hfirst⟩ := List.find?_eq_some_iff_getElem.mp hfind
    rw [List.length_zipIdx] at hi
    rw [List.getElem_zipIdx] at hp ⊢
    refine ⟨i, cs[i], List.getElem?_eq_getElem hi, by simpa using hp, fun k hk d hd => ?_, ?_⟩
    · obtain ⟨hlt, rfl⟩ := List.getElem?_eq_some_iff.mp hd
      have hfirst := hfirst k hk
      rw [List.getElem_zipIdx] at hfirst
      simpa using hfirst
    · rw [Nat.zero_add]

theorem firstMisfit_of_initialTableau {e : Error} (h : lp.initialTableau = .error e) :
    ∃ i c, lp.FirstMisfit i c ∧
      e = .rowLengthAt (i + 1) c.coefficients.length lp.numVars := by
  cases hcheck : Tableau.checkLengths lp.numVars lp.normalized.constraints with
  | ok =>
    rw [initialTableau, hcheck] at h
    cases h
  | error e' =>
    rw [initialTableau, hcheck] at h
    cases h
    obtain ⟨i, c, hc, hne, hfirst, rfl⟩ := checkLengths_eq_error hcheck
    obtain ⟨d, hd, rfl⟩ : ∃ d, lp.constraints[i]? = some d ∧ d.normalized = c := by
      rw [normalized, List.getElem?_map, Option.map_eq_some_iff] at hc
      exact hc
    rw [d.length_normalized] at hne ⊢
    refine ⟨i, d, ⟨hd, hne, fun k hk d' hd' => ?_⟩, rfl⟩
    have hmap : lp.normalized.constraints[k]? = some d'.normalized := by
      rw [normalized, List.getElem?_map, hd', Option.map_some]
    rw [← d'.length_normalized]
    exact hfirst k hk _ hmap

theorem exists_error_of_not_wellShaped (hw : ¬lp.WellShaped) (limit : Int) :
    ∃ e, lp.initialTableau = .error e ∧ lp.solve limit = .error e := by
  cases hstart : lp.initialTableau with
  | ok start => exact absurd (wellShaped_of_initialTableau_eq_ok hstart) hw
  | error e =>
    refine ⟨e, rfl, ?_⟩
    rw [solve, hstart]
    rfl

/-! ### The solver -/

/-- The answer of a solver that shows nothing, or shows tableaux that can all be written. -/
theorem answer_of_showable {digits : DigitLimit} {run : Run} (h : lp.solve limit = .ok run)
    (hshow : debug = true → run.Showable digits) (before : Nat) :
    Solver.answer digits debug ⟨.steps limit, before⟩ lp =
      ⟨if debug then Run.displayed run.snapshots else "", .ok run, ⟨.steps limit, run.steps⟩⟩ := by
  have hsolver := solver_of_solve_eq_ok h before
  cases debug with
  | false =>
    simp only [Solver.answer, StepLimit.count, h, hsolver]
    rfl
  | true =>
    simp only [Solver.answer, StepLimit.count, h, Solver.display, StepLimit.shownOf,
      StepLimit.judge, (hshow rfl).trace_eq, hsolver, if_true]

/-- The answer of a solver that would show a tableau that cannot be written. -/
theorem answer_of_not_showable {digits : DigitLimit} {run : Run} (h : lp.solve limit = .ok run)
    (hshow : ¬run.Showable digits) (before : Nat) :
    Solver.answer digits true ⟨.steps limit, before⟩ lp =
      ⟨Run.displayed (run.writtenBlocks digits), .error .tooManyDigits,
        ⟨.steps limit, run.stepsShown digits⟩⟩ := by
  simp only [Solver.answer, StepLimit.count, h, Solver.display, StepLimit.shownOf,
    StepLimit.judge, Run.trace_eq, if_neg hshow]

/-- The answer of a solver to a program that has no tableau. -/
theorem answer_of_error {e : Error} (h : lp.solve limit = .error e) (digits : DigitLimit)
    (before : Nat) : Solver.answer digits debug ⟨.steps limit, before⟩ lp =
      ⟨"", .error e, ⟨.steps limit, before⟩⟩ := by
  simp only [Solver.answer, Solver.solve, StepLimit.count, h]

theorem solve_grid_of_showable {digits : DigitLimit} {run : Run} (h : lp.solve limit = .ok run)
    (hshow : debug = true → run.Showable digits) : Grid.solve digits debug lp limit =
      .ok (run.outcome, run.steps, if debug then Run.displayed run.snapshots else "") := by
  rw [solve_grid, h, ok_bind, Tableau.report, Tableau.printed]
  cases debug with
  | false => rfl
  | true =>
    show ((run.trace digits).whole.map _) = _
    rw [(hshow rfl).trace_eq]
    rfl

theorem solve_grid_of_not_showable {digits : DigitLimit} {run : Run}
    (h : lp.solve limit = .ok run) (hshow : ¬run.Showable digits) :
    Grid.solve digits true lp limit = .error .tooManyDigits := by
  rw [solve_grid, h, ok_bind, Tableau.report]
  show ((run.trace digits).whole.map _) = _
  rw [Run.trace_eq, if_neg hshow]
  rfl

/-- A run would show a tableau with a number that is longer than the host allows. -/
def Overlong (digits : DigitLimit) (lp : LinearProgram) (limit : Int) : Prop :=
  ∃ run, lp.solve limit = .ok run ∧ ¬run.Showable digits

/-- What is said of a solver that has counted `before` steps and is given one more program. -/
structure Answered (digits : DigitLimit) (debug : Bool) (lp : LinearProgram) (limit : Int)
    (before : Nat) : Prop where
  /-- Solving fails on the programs with a row of the wrong length, and if tableaux are to be shown
  of which one cannot be. -/
  fails_iff : (∃ e, Grid.solve digits debug lp limit = .error e) ↔
    (∃ c ∈ lp.constraints, c.coefficients.length ≠ lp.numVars) ∨
      debug = true ∧ lp.Overlong digits limit
  /-- The error names the first row of the wrong length, and the solver keeps its steps. -/
  misfit : (∃ c ∈ lp.constraints, c.coefficients.length ≠ lp.numVars) →
    ∃ i c, lp.FirstMisfit i c ∧ ∃ e, e = .rowLengthAt (i + 1) c.coefficients.length lp.numVars ∧
      e.message = some (misfitMessage (i + 1) c.coefficients.length lp.numVars) ∧
      Grid.solve digits debug lp limit = .error e ∧
      Solver.answer digits debug ⟨.steps limit, before⟩ lp =
        ⟨"", .error e, ⟨.steps limit, before⟩⟩
  /-- The tableaux up to one that cannot be shown are shown, and the steps up to it are counted. -/
  overlong : ∀ run, lp.solve limit = .ok run → ¬run.Showable digits → debug = true →
    Grid.solve digits debug lp limit = .error .tooManyDigits ∧
    Solver.answer digits debug ⟨.steps limit, before⟩ lp =
      ⟨Run.displayed (run.writtenBlocks digits), .error .tooManyDigits,
        ⟨.steps limit, run.stepsShown digits⟩⟩
  /-- Without an error there is an outcome. -/
  solved : ∀ outcome steps text, Grid.solve digits debug lp limit = .ok (outcome, steps, text) →
    ∃ run : Run, Solver.answer digits debug ⟨.steps limit, before⟩ lp =
        ⟨text, .ok run, ⟨.steps limit, steps⟩⟩ ∧
      run.outcome = outcome ∧ run.steps = steps ∧
      text = if debug then Run.displayed run.snapshots else ""

theorem answered_of_not_wellShaped (hw : ¬lp.WellShaped) (digits : DigitLimit) (debug : Bool)
    (limit : Int) (before : Nat) : Answered digits debug lp limit before := by
  obtain ⟨e, hstart, hsolve⟩ := exists_error_of_not_wellShaped hw limit
  obtain ⟨i, c, hfirst, he⟩ := firstMisfit_of_initialTableau hstart
  have hgrid := solve_grid digits debug lp limit
  rw [hsolve] at hgrid
  have hmisfit : ∃ c ∈ lp.constraints, c.coefficients.length ≠ lp.numVars :=
    ⟨c, List.mem_of_getElem? hfirst.constraint, hfirst.length_ne⟩
  exact
    { fails_iff := iff_of_true ⟨e, hgrid⟩ (.inl hmisfit)
      misfit := fun _ =>
        ⟨i, c, hfirst, e, he, he ▸ rfl, hgrid, answer_of_error hsolve digits before⟩
      overlong := fun run hrun => by
        rw [hsolve] at hrun
        cases hrun
      solved := fun outcome steps text h => by
        rw [hgrid] at h
        cases h }

theorem answered_of_wellShaped (hw : lp.WellShaped) (digits : DigitLimit) (debug : Bool)
    (limit : Int) (before : Nat) : Answered digits debug lp limit before := by
  obtain ⟨run, hrun, -⟩ := solve_spec hw limit
  have hno : ¬∃ c ∈ lp.constraints, c.coefficients.length ≠ lp.numVars := fun ⟨c, hc, hne⟩ =>
    hne (hw c hc)
  have hoverlong : lp.Overlong digits limit ↔ ¬run.Showable digits := by
    constructor
    · rintro ⟨run', hrun', hnot⟩
      rw [hrun] at hrun'
      cases hrun'
      exact hnot
    · exact fun hnot => ⟨run, hrun, hnot⟩
  refine
    { fails_iff := ?_
      misfit := fun h => absurd h hno
      overlong := fun run' hrun' hnot hdebug => ?_
      solved := fun outcome steps text h => ?_ }
  · rw [or_iff_right hno, hoverlong]
    by_cases hshow : debug = true → run.Showable digits
    · rw [solve_grid_of_showable hrun hshow]
      exact iff_of_false nofun fun h => h.2 (hshow h.1)
    · obtain ⟨rfl, hnot⟩ := Classical.not_imp.mp hshow
      exact iff_of_true ⟨_, solve_grid_of_not_showable hrun hnot⟩ ⟨rfl, hnot⟩
  · subst hdebug
    exact ⟨solve_grid_of_not_showable hrun' hnot, answer_of_not_showable hrun' hnot before⟩
  · by_cases hshow : debug = true → run.Showable digits
    · rw [solve_grid_of_showable hrun hshow] at h
      cases h
      exact ⟨run, answer_of_showable hrun hshow before, rfl, rfl, rfl⟩
    · obtain ⟨rfl, hnot⟩ := Classical.not_imp.mp hshow
      rw [solve_grid_of_not_showable hrun hnot] at h
      cases h

/-- The second and the third row are too short. -/
def misfit : LinearProgram :=
  ⟨[1, 2], true, [⟨[1, 1], .atMost, 3⟩, ⟨[1], .atLeast, 2⟩, ⟨[], .equal, 0⟩]⟩

/-- A gain of one in `10 ^ 2200` for each unit, of which one in `10 ^ 2200` is allowed. -/
def minute : LinearProgram :=
  ⟨[mkRat 1 (Nat.pow 10 2200)], true, [⟨[(Nat.pow 10 2200 : Nat)], .atMost, 1⟩]⟩

end LinearProgram

end ExactSimplex
